import Mathlib.Data.List.Induction
import TagIndex.Proofs.Patterns
import TagIndex.Proofs.Uncut

/-!
# Merging by scope

Where all matching rows fit under the limit, a lookup of a name in several scopes answers them scope by scope, in
the order in which the scopes are first listed. Within a scope they come by id, unless so many scopes are listed
that a visit of the range of names is the cheaper one. Whatever the limit cuts, the answer has no row twice and
keeps that order.
-/

namespace TagIndex

open Lookup Store Query

variable {db : Database} {test : Test} {scopes : List String} {scope : String} {limit : Nat} {r : Row}

/-! ## The order of the list -/

/-- The distinct scopes of a list stand in the order in which they first come in it. -/
theorem pairwise_eraseDups (scopes : List String) :
    scopes.eraseDups.Pairwise fun a b => scopes.idxOf a ≤ scopes.idxOf b := by
  induction scopes using List.reverseRecOn with
  | nil => simp
  | append_singleton scopes scope ih =>
      have hfront : ∀ a ∈ scopes.eraseDups, (scopes ++ [scope]).idxOf a = scopes.idxOf a :=
        fun a ha => List.idxOf_append_of_mem (List.mem_eraseDups.mp ha)
      have hfirst : scopes.eraseDups.Pairwise
          fun a b => (scopes ++ [scope]).idxOf a ≤ (scopes ++ [scope]).idxOf b :=
        ih.imp_of_mem fun ha hb hab => by rwa [hfront _ ha, hfront _ hb]
      by_cases hm : scope ∈ scopes
      · have hnone : [scope].removeAll scopes = [] := by simp [List.removeAll, hm]
        rwa [List.eraseDups_append, hnone, List.eraseDups_nil, List.append_nil]
      · have hlast : ([scope].removeAll scopes).eraseDups = [scope] := by
          simp [List.removeAll, hm, List.eraseDups_cons]
        rw [List.eraseDups_append, hlast, List.pairwise_append]
        refine ⟨hfirst, List.pairwise_singleton _ _, fun a ha b hb => ?_⟩
        rw [List.mem_singleton.mp hb, hfront a ha, List.idxOf_append_of_notMem hm]
        exact Nat.le_trans (Nat.le_of_lt (List.idxOf_lt_length_of_mem (List.mem_eraseDups.mp ha)))
          (Nat.le_add_right _ _)

/-! ## Groups -/

/-- The rows of one scope whose names meet a test, by id. -/
def namedIn (db : Database) (test : Test) (scope : String) : List Row :=
  db.tags.filter fun r => r.tag.scope = scope ∧ test.holds r.tag.name

/-- The rows of one scope as they are answered for a list of scopes. Those of named scopes are visited by name if
there are so many that this is cheaper. -/
def group (scopes : List String) (test : Test) (db : Database) (scope : String) : List Row :=
  if scope ≠ globalScope ∧ (Test.oneOf (namedScopes scopes)).isBeatenBy test then
    (namedIn db test scope).mergeSort fun a b => (Walk.byName.compare a b).isLE
  else namedIn db test scope

theorem walk_byScopesAndName (scopes : List String) (test : Test) (limit : Nat) :
    (byScopesAndName scopes test limit).walk =
      if (Test.oneOf scopes).isBeatenBy test then .byName else if test.isExact then .byId else .byScope := by
  cases test <;> simp [walk, tests, byScopesAndName, Test.isOneOf, Test.isExact, Test.isRange]

theorem perm_eq (hs : db.Sound) (w : Walk) {rows rows' : List Row} (hrows : ∀ r ∈ rows', r ∈ db.tags)
    (h : rows.Perm rows') (hp : rows.Pairwise fun a b => (w.compare a b).isLE)
    (hp' : rows'.Pairwise fun a b => (w.compare a b).isLE) : rows = rows' :=
  h.eq_of_pairwise (fun _ _ ha hb hab hba =>
    hs.eq_of_id (hrows _ (h.mem_iff.mp ha)) (hrows _ hb) (w.id_eq hab hba)) hp hp'

/-- Among the rows that the query for the named scopes visits, those of one scope stand as in its group. -/
theorem visited_filter (hs : db.Sound) (hm : scope ∈ scopes) :
    ((byScopesAndName scopes test limit).visited db).filter (·.tag.scope = scope) =
      if (Test.oneOf scopes).isBeatenBy test then
        (namedIn db test scope).mergeSort fun a b => (Walk.byName.compare a b).isLE
      else namedIn db test scope := by
  have hperm : (((byScopesAndName scopes test limit).visited db).filter (·.tag.scope = scope)).Perm
      (namedIn db test scope) := by
    refine ((visited_perm _ db).filter _).trans (.of_eq ?_)
    rw [List.filter_filter, namedIn]
    refine List.filter_congr fun r _ => ?_
    rw [Bool.eq_iff_iff, Bool.and_eq_true, byScopesAndName_accepts]
    simp only [decide_eq_true_eq]
    constructor
    · rintro ⟨rfl, _, hname⟩
      exact ⟨rfl, hname⟩
    · rintro ⟨rfl, hname⟩
      exact ⟨rfl, hm, hname⟩
  have hsorted : (((byScopesAndName scopes test limit).visited db).filter (·.tag.scope = scope)).Pairwise
      fun a b => ((byScopesAndName scopes test limit).walk.compare a b).isLE := (pairwise_visited rfl).filter _
  have hrows : ∀ r ∈ namedIn db test scope, r ∈ db.tags := fun r => List.mem_of_mem_filter
  rw [walk_byScopesAndName] at hsorted
  split
  · rw [if_pos ‹_›] at hsorted
    refine perm_eq hs .byName (fun r hr => hrows r (List.mem_mergeSort.mp hr)) (hperm.trans ?_) hsorted
      (Walk.pairwise_mergeSort _ _)
    exact (List.mergeSort_perm _ _).symm
  · rw [if_neg ‹_›] at hsorted
    refine perm_eq hs .byId hrows hperm (List.Pairwise.imp_of_mem ?_ hsorted) ?_
    · intro a b ha hb hab
      have hscope : a.tag.scope = b.tag.scope :=
        (of_decide_eq_true (List.mem_filter.mp ha).2).trans (of_decide_eq_true (List.mem_filter.mp hb).2).symm
      split at hab
      · exact hab
      · simpa [Walk.compare, hscope] using hab
    · exact (hs.ascending.filter _).imp fun hab => Nat.isLE_compare.mpr (Nat.le_of_lt hab)

/-! ## What is asked for -/

theorem isTooLarge_byScopesAndName :
    (byScopesAndName scopes test limit).isTooLarge ↔ maxValues < scopes.length + test.valueCount := by
  have hvalues : (byScopesAndName scopes test limit).conditions.foldl (fun n c => n + c.valueCount) 0 =
      scopes.length + test.valueCount := congrArg (· + test.valueCount) (Nat.zero_add _)
  have hfew : ¬ maxConditions < (byScopesAndName scopes test limit).conditions.length := (by decide : ¬ maxConditions < 2)
  rw [isTooLarge, hvalues, Bool.or_eq_true, decide_eq_true_iff, decide_eq_true_iff]
  exact or_iff_right hfew

/-- The global scope is asked for by itself, so that its projection matters only if it is listed. -/
theorem globalFound_listed (hs : db.Sound) (hp : globalScope ∈ scopes → db.Projected) (ht : test.isTooLong = false)
    (hcount : test.valueCount ≤ 2) (hmax : limit ≤ maxLimit) : globalFound scopes test limit db =
      if globalScope ∈ scopes then (namedIn db test globalScope).take limit else [] := by
  by_cases hm : globalScope ∈ scopes
  · rw [globalFound_eq hs (hp hm) ht hcount hmax]
    rfl
  · rw [globalFound, if_neg (by simpa using hm), if_neg hm]

/-- The named scopes are asked for what the global one has left. -/
theorem nestedFound_visited (ht : test.isTooLong = false) (hmax : limit ≤ maxLimit)
    (hvalues : (namedScopes scopes).length + test.valueCount ≤ maxValues) :
    let left := remaining limit (globalFound scopes test limit db).length
    nestedFound scopes test limit db = ((byScopesAndName (namedScopes scopes) test left).visited db).take left := by
  intro left
  have hsmall : (byScopesAndName (namedScopes scopes) test left).isTooLarge = false :=
    Bool.eq_false_iff.mpr fun hlarge => Nat.not_lt.mpr hvalues (isTooLarge_byScopesAndName.mp hlarge)
  have hshort : ∀ c ∈ (byScopesAndName (namedScopes scopes) test left).conditions, c.isTooLong = false := by
    simp only [byScopesAndName, List.forall_mem_cons]
    exact ⟨rfl, ht, List.forall_mem_nil _⟩
  rw [nestedFound, found_of_run hsmall (run_eq (remaining_le hmax _) hshort)]
  rfl

/-- Nothing is found for a list of more scopes than a query takes values. -/
theorem joinedNames_of_large (hm : globalScope ∉ scopes) (h : maxValues < (namedScopes scopes).length) (hl : 1 ≤ limit) :
    joinedNames scopes test limit db = [] := by
  have hglobal : globalFound scopes test limit db = [] := if_neg (by simpa using hm)
  have hnested : nestedFound scopes test limit db = [] :=
    if_pos (isTooLarge_byScopesAndName.mpr (Nat.lt_of_lt_of_le h (Nat.le_add_right _ _)))
  have hrows : ∀ scope, rowsOf [] [] scope = [] := by simp [rowsOf]
  rw [joinedNames_eq hl, hglobal, hnested, List.flatMap_eq_nil_iff.mpr fun scope _ => hrows scope, List.take_nil]

/-! ## Everything fits -/

/-- The rows of the listed scopes whose names meet the test are those of the global scope, if that is listed, and
those that the query for the named scopes accepts. -/
theorem length_listed (scopes : List String) (test : Test) (limit : Nat) (db : Database) :
    (db.tags.filter fun r => r.tag.scope ∈ scopes ∧ test.holds r.tag.name).length =
      (if globalScope ∈ scopes then (namedIn db test globalScope).length else 0) +
        db.tags.countP ((byScopesAndName (namedScopes scopes) test limit).accepts db) := by
  have hrow : ∀ r, (byScopesAndName (namedScopes scopes) test limit).accepts db r =
      decide ((r.tag.scope ∈ scopes ∧ r.tag.scope ≠ globalScope) ∧ test.holds r.tag.name) := by
    intro r
    rw [Bool.eq_iff_iff, byScopesAndName_accepts, mem_namedScopes, decide_eq_true_eq]
  rw [← List.countP_eq_length_filter, namedIn, ← List.countP_eq_length_filter]
  induction db.tags with
  | nil => simp
  | cons r rows ih =>
      simp only [List.countP_cons, ih, hrow, decide_eq_true_eq]
      by_cases hr : r.tag.scope = globalScope
      · simp only [hr, ne_eq, not_true_eq_false, and_false, false_and, if_false, true_and]
        by_cases hm : globalScope ∈ scopes
        · simp only [hm, true_and, if_true]
          omega
        · simp only [hm, false_and, if_false]
          omega
      · simp only [hr, ne_eq, not_false_eq_true, and_true, false_and, if_false, Nat.add_zero]
        omega

/-- What the global scope leaves of the limit suffices for the others, so neither query is cut, and nor is the
answer. -/
theorem joinedNames_of_fits (hs : db.Sound) (hp : globalScope ∈ scopes → db.Projected) (ht : test.isTooLong = false)
    (hcount : test.valueCount ≤ 2) (hl : 1 ≤ limit) (hmax : limit ≤ maxLimit)
    (hvalues : (namedScopes scopes).length + test.valueCount ≤ maxValues)
    (hfit : (db.tags.filter fun r => r.tag.scope ∈ scopes ∧ test.holds r.tag.name).length ≤ limit) :
    joinedNames scopes test limit db = scopes.eraseDups.flatMap (group scopes test db) := by
  have hglobal : globalFound scopes test limit db = if globalScope ∈ scopes then namedIn db test globalScope else [] := by
    rw [globalFound_listed hs hp ht hcount hmax]
    split
    · rw [length_listed scopes test limit db, if_pos ‹_›] at hfit
      exact List.take_of_length_le (Nat.le_trans (Nat.le_add_right _ _) hfit)
    · rfl
  let query := byScopesAndName (namedScopes scopes) test (remaining limit (globalFound scopes test limit db).length)
  have hlength : (globalFound scopes test limit db).length + (query.visited db).length ≤ limit := by
    rw [length_listed scopes test _ db] at hfit
    rw [(visited_perm _ _).length_eq, ← List.countP_eq_length_filter, hglobal]
    split at hfit
    · rwa [if_pos ‹_›]
    · rwa [if_neg ‹_›]
  have hnested : nestedFound scopes test limit db = query.visited db := by
    have hleft : (query.visited db).length ≤ remaining limit (globalFound scopes test limit db).length := by
      show _ ≤ max _ 1
      omega
    exact (nestedFound_visited ht hmax hvalues).trans (List.take_of_length_le hleft)
  have hgroups : scopes.eraseDups.flatMap (rowsOf (globalFound scopes test limit db) (nestedFound scopes test limit db)) =
      scopes.eraseDups.flatMap (group scopes test db) := by
    refine List.flatMap_congr fun scope hm => ?_
    have hm := List.mem_eraseDups.mp hm
    rw [rowsOf, group]
    by_cases hscope : scope = globalScope
    · subst hscope
      rw [if_pos rfl, if_neg (by simp), hglobal, if_pos hm]
    · rw [if_neg hscope, hnested, visited_filter hs (mem_namedScopes.mpr ⟨hm, hscope⟩)]
      simp only [ne_eq, hscope, not_false_eq_true, true_and]
  have hall : (scopes.eraseDups.flatMap
      (rowsOf (globalFound scopes test limit db) (nestedFound scopes test limit db))).length ≤ limit := by
    refine Nat.le_trans (length_flatMap_le (nodup_eraseDups scopes)) ?_
    rwa [hnested]
  rw [joinedNames_eq hl, List.take_of_length_le hall, hgroups]

/-! ## Whatever is found -/

namespace Lookup

variable {α β : Type} {s : Store} {l : Lookup α} {f : α → Lookup β} {P : β → Store → Prop}

/-- What is true of the answer of a lookup and of the store that it leaves. -/
def Yields (s : Store) (l : Lookup α) (P : α → Store → Prop) : Prop := P (l.run s).1 (l.run s).2

theorem Yields.bind (h : Yields s l fun a t => Yields t (f a) P) : Yields s (l >>= f) P := h

theorem Yields.limited {f : Nat → Lookup β} (h : Yields s (f s.options.searchLimit) P) :
    Yields s (searchLimit >>= f) P := h

theorem Yields.named {f : Test → Lookup β} {name : String} {isPartial : Bool}
    (h : Yields s (f (.forName name isPartial s.options.caseSensitive)) P) :
    Yields s (nameTest name isPartial >>= f) P := h

theorem Yields.imp {Q : α → Store → Prop} {P : α → Store → Prop} (h : Yields s l Q) (hp : ∀ a t, Q a t → P a t) :
    Yields s l P := hp _ _ h

end Lookup

namespace Store

variable {s t : Store} {name : String} {isPartial : Bool}

theorem fetchKinds_options (s : Store) (q : Query) (kinds : List String) :
    ((fetchKinds q kinds).run s).2.options = s.options := by
  have hasked := (s.askDatabase_remains q.run).2
  rcases s.fetchKinds_cases q kinds with hs | hs | ⟨_, _, hs⟩ <;> rw [hs]
  · exact hasked
  · exact hasked

section Twice

variable {A : List String → Prop} {kinds : List String}

/-- A lookup of rows that answers any has found them in what the session sees before and after. -/
theorem yields_first (h : s.IsCurrentBy A) (hk : A kinds) (ht : Told A kinds) (q : Query) :
    Yields s (fetchKinds q kinds) fun rows t =>
      (t.KeepsFrom A (· = s.database) ∧ t.options = s.options) ∧
        (rows = [] ∨ rows = found q kinds s.database ∧ t.database = s.database) := by
  refine ⟨⟨h.keepsFrom.fetchKinds rfl hk q, s.fetchKinds_options q kinds⟩, ?_⟩
  rcases h.fetchKinds_found ht q with hfound | hnone
  · exact (s.fetchKinds_sees q kinds).imp_right fun hsame => ⟨hfound, hsame⟩
  · exact .inl hnone

/-- The next one may find them among the answers that are kept from before. -/
theorem yields_second (h : t.KeepsFrom A (· = db)) (ht : Told A kinds) (q : Query) :
    Yields t (fetchKinds q kinds) fun rows u =>
      rows = [] ∨ rows = found q kinds db ∨ rows = found q kinds t.database ∧ u.database = t.database := by
  rcases h.fetchKinds_found ht q with hnone | ⟨_, rfl, hfound⟩ | hfound
  · exact .inl hnone
  · exact .inr (.inl hfound)
  · exact .inr (.inr hfound)

/-- Two lookups, one after the other, have found their rows in one state of the tables: that before, or that
afterwards. -/
theorem found_together {db₀ db₁ db₂ : Database} {first second : List Row} {X Y : Database → List Row}
    (hfirst : first = [] ∨ first = X db₀ ∧ db₁ = db₀)
    (hsecond : second = [] ∨ second = Y db₀ ∨ second = Y db₁ ∧ db₂ = db₁) :
    ∃ db, (db = db₀ ∨ db = db₂) ∧ (first = [] ∨ db = db₀ ∧ first = X db) ∧ (second = [] ∨ second = Y db) := by
  rcases hsecond with hnone | hkept | ⟨hfound, rfl⟩
  · exact ⟨db₀, .inl rfl, hfirst.imp_right fun h => ⟨rfl, h.1⟩, .inl hnone⟩
  · exact ⟨db₀, .inl rfl, hfirst.imp_right fun h => ⟨rfl, h.1⟩, .inr hkept⟩
  · refine ⟨db₂, .inr rfl, ?_, .inr hfound⟩
    rcases hfirst with hnone | ⟨hfirst, rfl⟩
    · exact .inl hnone
    · exact .inr ⟨rfl, hfirst⟩

end Twice

/-- The answer puts together rows of the global scope and rows of the named scopes, all found in one state of the
tables: what the session sees before, or what it sees afterwards. -/
def Joined (s : Store) (scopes : List String) (test : Test) (answer : List Row) (t : Store) : Prop :=
  ∃ db global nested, (db = s.database ∨ db = t.database) ∧
    answer = mergeScopes s.options.searchLimit nested scopes [] global [] ∧
    (global = [] ∨ db = s.database ∧ globalScope ∈ scopes ∧
      global = found (byScopeAndName globalScope test s.options.searchLimit) [] db) ∧
    (nested = [] ∨ ∃ limit, nested = found (byScopesAndName (namedScopes scopes) test limit) [] db)

theorem yields_joinNamed (h : t.KeepsFrom (fun _ => True) (· = s.database)) (ho : t.options = s.options)
    (scopes : List String) (name : String) (isPartial : Bool) {global : List Row}
    (hglobal : global = [] ∨ (globalScope ∈ scopes ∧
      global = found (byScopeAndName globalScope (.forName name isPartial s.options.caseSensitive)
        s.options.searchLimit) [] s.database) ∧ t.database = s.database) :
    Yields t (joinNamed s.options.searchLimit scopes name isPartial global)
      (s.Joined scopes (.forName name isPartial s.options.caseSensitive)) := by
  rw [joinNamed]
  split
  · exact ⟨s.database, global, [], .inl rfl, rfl, hglobal.imp_right fun h => ⟨rfl, h.1⟩, .inl rfl⟩
  · refine .named (.bind ((yields_second h (fun _ _ htext => kindsText_eq_empty htext) _).imp ?_))
    rw [ho]
    intro nested u hnested
    have hm : global = [] ∨ globalScope ∈ scopes := hglobal.imp_right fun h => h.1.1
    obtain ⟨db, hdb, hglobal, hnested⟩ := found_together
      (X := found (byScopeAndName globalScope (.forName name isPartial s.options.caseSensitive) s.options.searchLimit) [])
      (Y := found (byScopesAndName _ _ _) []) (hglobal.imp_right fun h => ⟨h.1.2, h.2⟩) hnested
    exact ⟨db, global, nested, hdb, rfl, hm.elim .inl fun hm => hglobal.imp_right fun h => ⟨h.1, hm, h.2⟩,
      hnested.imp_right (⟨_, ·⟩)⟩

theorem yields_tagsByScopesAndName (h : s.IsCurrent) (hn : name ≠ "") (scopes : List String) (isPartial : Bool) :
    Yields s (tagsByScopesAndName scopes name isPartial)
      (s.Joined scopes (.forName name isPartial s.options.caseSensitive)) := by
  rw [tagsByScopesAndName_eq]
  by_cases hempty : scopes.isEmpty
  · rw [if_pos (.inl hempty), List.isEmpty_iff.mp hempty]
    exact ⟨s.database, [], [], .inl rfl, rfl, .inl rfl, .inl rfl⟩
  rw [if_neg (by simp [hempty, hn])]
  refine .limited ?_
  split
  · rename_i hlisted
    rw [tagsByScopeAndName, if_neg hn]
    refine .bind (.named (.limited ((yields_first h trivial (fun _ _ htext => kindsText_eq_empty htext) _).imp ?_)))
    rintro global t ⟨⟨hkeeps, ho⟩, hglobal⟩
    exact yields_joinNamed hkeeps ho scopes name isPartial
      (hglobal.imp_right fun h => ⟨⟨List.contains_iff_mem.mp hlisted, h.1⟩, h.2⟩)
  · exact yields_joinNamed h.keepsFrom rfl scopes name isPartial (.inl rfl)

/-- Whatever has been found, it is joined group by group. -/
theorem Joined.spec {answer : List Row} (h : s.Joined scopes test answer t) (hs : s.database.Sound)
    (ht : t.database.Sound) (hp : globalScope ∈ scopes → s.database.Projected) :
    (∃ db, (db = s.database ∨ db = t.database) ∧
      ∀ r ∈ answer, r ∈ db.tags ∧ r.tag.scope ∈ scopes ∧ test.holds r.tag.name) ∧
    answer.Nodup ∧ answer.Pairwise fun a b => scopes.idxOf a.tag.scope ≤ scopes.idxOf b.tag.scope := by
  obtain ⟨db, global, nested, hdb, rfl, hglobal, hnested⟩ := h
  have hsound : db.Sound := hdb.elim (fun he => he ▸ hs) fun he => he ▸ ht
  have hsub : (mergeScopes s.options.searchLimit nested scopes [] global []).Sublist
      (scopes.eraseDups.flatMap (rowsOf global nested)) := by
    rcases Nat.eq_zero_or_pos s.options.searchLimit with hzero | hl
    · have hnone : mergeScopes s.options.searchLimit nested scopes [] global [] = [] :=
        List.eq_nil_of_length_eq_zero (Nat.le_zero.mp (hzero ▸ length_mergeScopes_le _ _ _ _ (Nat.zero_le _)))
      rw [hnone]
      exact List.nil_sublist _
    · rw [mergeScopes_eq scopes [] _ [] hl fun _ => rfl]
      simpa [List.removeAll] using List.take_sublist _ _
  have hrow : ∀ scope, ∀ r ∈ rowsOf global nested scope,
      r ∈ db.tags ∧ r.tag.scope = scope ∧ test.holds r.tag.name := by
    intro scope r hr
    unfold rowsOf at hr
    split at hr
    · rcases hglobal with rfl | ⟨rfl, hm, rfl⟩
      · cases hr
      · obtain ⟨hmem, haccepts⟩ := mem_found hr
        obtain ⟨hscope, hname⟩ := (accepts_byScopeAndName (fun _ => ⟨hs, hp hm⟩) hmem).mp haccepts
        exact ⟨hmem, hscope.trans (Eq.symm ‹_›), hname⟩
    · obtain ⟨hr, hscope⟩ := List.mem_filter.mp hr
      rcases hnested with rfl | ⟨limit, rfl⟩
      · cases hr
      · obtain ⟨hmem, haccepts⟩ := mem_found hr
        exact ⟨hmem, of_decide_eq_true hscope, (byScopesAndName_accepts.mp haccepts).2⟩
  have hgroup : ∀ scope, (rowsOf global nested scope).Nodup := by
    intro scope
    unfold rowsOf
    split
    · rcases hglobal with rfl | ⟨rfl, _, rfl⟩
      · exact .nil
      · exact nodup_found hsound _ _
    · rcases hnested with rfl | ⟨limit, rfl⟩
      · exact .nil
      · exact (nodup_found hsound _ _).filter _
  -- Groups of different scopes have no row in common, for each row has its group's scope.
  have hdistinct : scopes.eraseDups.Pairwise (Function.onFun List.Disjoint (rowsOf global nested)) :=
    (nodup_eraseDups scopes).imp fun hne r hr hr' => hne ((hrow _ r hr).2.1.symm.trans (hrow _ r hr').2.1)
  refine ⟨⟨db, hdb, fun r hr => ?_⟩, hsub.nodup (List.nodup_flatMap.mpr ⟨fun scope _ => hgroup scope, hdistinct⟩),
    (List.pairwise_flatMap.mpr ⟨fun scope _ => ?_, ?_⟩).sublist hsub⟩
  · obtain ⟨scope, hm, hr⟩ := List.mem_flatMap.mp (hsub.subset hr)
    obtain ⟨hmem, rfl, hname⟩ := hrow scope r hr
    exact ⟨hmem, List.mem_eraseDups.mp hm, hname⟩
  · refine List.pairwise_of_forall_mem_list fun a ha b hb => ?_
    rw [(hrow scope a ha).2.1, (hrow scope b hb).2.1]
  · refine (pairwise_eraseDups scopes).imp fun hle a ha b hb => ?_
    rwa [(hrow _ a ha).2.1, (hrow _ b hb).2.1]

end Store
end TagIndex
