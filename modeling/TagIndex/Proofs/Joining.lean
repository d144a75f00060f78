import TagIndex.Proofs.GlobalNames
import TagIndex.Proofs.Serving

/-!
# Names in several scopes

The global scope is asked for by itself and all others by one query, for what the global scope leaves of the
limit. The answer joins the rows scope by scope, in list order, and cuts the end.
-/

namespace TagIndex.Store

open Lookup Query

variable {A : List String → Prop} {o : Options} {db : Database} {test : Test} {scopes : List String}
  {limit : Nat} {r : Row}

/-! ## Joining -/

/-- The rows of a scope among those of the global scope and those of the others. -/
def rowsOf (global nested : List Row) (scope : String) : List Row :=
  if scope = globalScope then global else nested.filter (·.tag.scope = scope)

theorem mem_mergeScopes {global nested tags : List Row} {merged : List String}
    (h : r ∈ mergeScopes limit nested scopes merged global tags) : r ∈ tags ∨ r ∈ global ∨ r ∈ nested := by
  induction scopes generalizing merged global tags with
  | nil => exact .inl h
  | cons scope scopes ih =>
      unfold mergeScopes at h
      split at h
      · exact ih h
      dsimp only at h
      generalize hfound : (if scope = globalScope then global else nested.filter (·.tag.scope = scope)) = found at h
      have hmem : r ∈ tags ++ found → r ∈ tags ∨ r ∈ global ∨ r ∈ nested := by
        refine fun hr => (List.mem_append.mp hr).imp_right fun hr => ?_
        rw [← hfound] at hr
        split at hr
        · exact .inl hr
        · exact .inr (List.mem_of_mem_filter hr)
      by_cases hfull : limit ≤ (tags ++ found).length
      · rw [if_pos hfull] at h
        exact hmem (List.mem_of_mem_take h)
      · rw [if_neg hfull] at h
        rcases ih h with hr | hr | hr
        · exact hmem hr
        · exact .inr (.inl (List.mem_ite_nil_left.mp hr).2)
        · exact .inr (.inr hr)

/-- Joining takes the rows of each scope once, in list order, and cuts them at the limit. -/
theorem mergeScopes_eq {limit : Nat} {global nested : List Row} (scopes merged : List String)
    (left tags : List Row) (hl : tags.length < limit) (hg : globalScope ∉ merged → left = global) :
    mergeScopes limit nested scopes merged left tags =
      (tags ++ (scopes.removeAll merged).eraseDups.flatMap (rowsOf global nested)).take limit := by
  -- `left` are the rows of the global scope until this has been merged, and nothing is asked of it later.
  induction scopes generalizing merged left tags with
  | nil =>
      rw [mergeScopes, List.take_of_length_le (by simp; omega)]
      simp [List.removeAll]
  | cons scope scopes ih =>
      rw [mergeScopes, List.cons_removeAll]
      cases hm : merged.contains scope with
      | true =>
          rw [if_pos rfl, if_neg (by decide), ih merged left tags hl hg]
      | false =>
          have hmem : scope ∉ merged := by simpa using hm
          have hfound : (if scope = globalScope then left else nested.filter (·.tag.scope = scope)) =
              rowsOf global nested scope := by
            unfold rowsOf
            split
            · rename_i he
              exact hg (he ▸ hmem)
            · rfl
          have hrest : ((scopes.removeAll merged).filter fun b => !b == scope) =
              scopes.removeAll (scope :: merged) := by
            simp only [List.removeAll, List.filter_filter, List.elem_cons]
            refine List.filter_congr fun a _ => ?_
            cases a == scope <;> rfl
          rw [if_neg (by decide), if_pos rfl, List.eraseDups_cons, hrest, List.flatMap_cons,
            ← List.append_assoc]
          dsimp only
          rw [hfound]
          split
          · exact (List.take_append_of_le_length ‹_›).symm
          · refine ih _ _ _ (by omega) fun hne => ?_
            have hscope : scope ≠ globalScope := fun he => hne (he ▸ List.mem_cons_self)
            rw [if_neg hscope]
            exact hg fun hmem => hne (List.mem_cons_of_mem _ hmem)

/-- Where a row of one scope comes before the cut, so do all rows that were fetched for the scopes before
it. -/
theorem joined_of_later {rowsOf : String → List Row} {limit : Nat} {front back : List String}
    {later earlier : String} (hscope : ∀ scope, ∀ r ∈ rowsOf scope, r.tag.scope = scope)
    (hr : r ∈ ((front ++ back).eraseDups.flatMap rowsOf).take limit) (hrow : r.tag.scope = later)
    (hlater : later ∉ front) (hearlier : earlier ∈ front) :
    (rowsOf earlier).length < limit ∧
      ∀ row ∈ rowsOf earlier, row ∈ ((front ++ back).eraseDups.flatMap rowsOf).take limit := by
  rw [List.eraseDups_append, List.flatMap_append] at hr ⊢
  have hnot : r ∉ front.eraseDups.flatMap rowsOf := by
    intro hmem
    obtain ⟨scope, hs, hr⟩ := List.mem_flatMap.mp hmem
    refine hlater ?_
    rw [← hrow, hscope scope r hr]
    exact List.mem_eraseDups.mp hs
  have hlt : (front.eraseDups.flatMap rowsOf).length < limit := by
    by_contra hge
    rw [List.take_append_of_le_length (Nat.le_of_not_lt hge)] at hr
    exact hnot (List.mem_of_mem_take hr)
  have hsub : (rowsOf earlier).Sublist (front.eraseDups.flatMap rowsOf) := by
    obtain ⟨before, after, he⟩ := List.append_of_mem (List.mem_eraseDups.mpr hearlier)
    rw [he, List.flatMap_append, List.flatMap_cons]
    exact (List.sublist_append_left _ _).trans (List.sublist_append_right _ _)
  refine ⟨Nat.lt_of_le_of_lt hsub.length_le hlt, fun row hmem => ?_⟩
  rw [List.take_append, List.take_of_length_le (Nat.le_of_lt hlt)]
  exact List.mem_append_left _ (hsub.subset hmem)

/-! ## The two queries -/

/-- The rows that the global scope is asked for, if it is listed. -/
def globalFound (scopes : List String) (test : Test) (limit : Nat) (db : Database) : List Row :=
  if scopes.contains globalScope then found (byScopeAndName globalScope test limit) [] db else []

/-- The rows that the other scopes are asked for, for what the global scope leaves of the limit. -/
def nestedFound (scopes : List String) (test : Test) (limit : Nat) (db : Database) : List Row :=
  found (byScopesAndName (namedScopes scopes) test
    (remaining limit (globalFound scopes test limit db).length)) [] db

/-- The answer of the lookup of a name in several scopes. -/
def joinedNames (scopes : List String) (test : Test) (limit : Nat) (db : Database) : List Row :=
  mergeScopes limit (nestedFound scopes test limit db) scopes [] (globalFound scopes test limit db) []

theorem byScopesAndName_accepts : (byScopesAndName scopes test limit).accepts db r ↔
    r.tag.scope ∈ scopes ∧ test.holds r.tag.name := by
  simp [accepts, byScopesAndName, Condition.holds, Test.holds, TextColumn.of]

/-- A whole name is looked for by id, whatever the scopes are. -/
theorem visited_byScopesAndName_is (hs : db.Sound) (scopes : List String) (name : String) (limit : Nat) :
    (byScopesAndName scopes (.is name) limit).visited db =
      db.tags.filter fun r => r.tag.scope ∈ scopes ∧ r.tag.name = name := by
  have hwalk : (byScopesAndName scopes (.is name) limit).walk = .byId := by
    simp [walk, tests, byScopesAndName, Test.isOneOf, Test.isExact, Test.isBeatenBy, Test.isRange,
      Test.rangeWorth?]
  rw [visited_byId hs hwalk rfl]
  refine List.filter_congr fun r _ => ?_
  rw [Bool.eq_iff_iff, byScopesAndName_accepts]
  simp [Test.holds]

theorem nestedFound_of_isEmpty (h : (namedScopes scopes).isEmpty) :
    nestedFound scopes test limit db = [] := by
  refine List.eq_nil_iff_forall_not_mem.mpr fun r hr => ?_
  have hscope := (byScopesAndName_accepts.mp (mem_found hr).2).1
  rw [List.isEmpty_iff.mp h] at hscope
  cases hscope

theorem serves_tagsByScopeAndName (hA : A []) (ht : Told A []) (scope : String) {name : String}
    (hn : name ≠ "") (isPartial : Bool) :
    Meets (Serves A o db) (tagsByScopeAndName scope name isPartial)
      (· = found (byScopeAndName scope (Test.forName name isPartial o.caseSensitive) o.searchLimit) [] db) := by
  rw [tagsByScopeAndName, if_neg hn]
  refine (serves_nameTest name isPartial).bind fun test htest => ?_
  refine serves_searchLimit.bind fun limit hlimit => ?_
  rw [htest, hlimit]
  exact serves_fetchKinds hA ht _

theorem serves_joinNamed (hA : A []) (ht : Told A []) (scopes : List String) (name : String) (isPartial : Bool)
    {global : List Row} (hg : global = globalFound scopes (.forName name isPartial o.caseSensitive) o.searchLimit db) :
    Meets (Serves A o db) (joinNamed o.searchLimit scopes name isPartial global)
      (· = joinedNames scopes (.forName name isPartial o.caseSensitive) o.searchLimit db) := by
  rw [joinNamed, hg]
  split
  · have hnested : nestedFound scopes (.forName name isPartial o.caseSensitive) o.searchLimit db = [] :=
      nestedFound_of_isEmpty ‹_›
    refine .pure_bind (.pure ?_)
    rw [joinedNames, hnested]
  · refine (serves_nameTest name isPartial).bind fun test htest => ?_
    rw [htest]
    refine (serves_fetchKinds hA ht _).bind fun nested hnested => .pure ?_
    rw [hnested]
    rfl

theorem serves_tagsByScopesAndName (hA : A []) (ht : Told A []) (scopes : List String) {name : String}
    (hn : name ≠ "") (isPartial : Bool) :
    Meets (Serves A o db) (tagsByScopesAndName scopes name isPartial)
      (· = joinedNames scopes (Test.forName name isPartial o.caseSensitive) o.searchLimit db) := by
  rw [tagsByScopesAndName_eq]
  by_cases hempty : scopes.isEmpty
  · rw [if_pos (.inl hempty), List.isEmpty_iff.mp hempty]
    exact .pure rfl
  · rw [if_neg (by simp [hempty, hn])]
    refine serves_searchLimit.bind fun limit hlimit => ?_
    rw [hlimit]
    split
    · refine (serves_tagsByScopeAndName hA ht globalScope hn isPartial).bind fun global hglobal =>
        serves_joinNamed hA ht scopes name isPartial ?_
      rw [hglobal, globalFound, if_pos ‹_›]
    · refine serves_joinNamed hA ht scopes name isPartial ?_
      rw [globalFound, if_neg ‹_›]

/-- How many rows there are to be found in the global scope, if it is listed. -/
def globalCount (scopes : List String) (test : Test) (db : Database) : Nat :=
  if globalScope ∈ scopes then (globalNamed db test).length else 0

/-- The query for all listed scopes but the global one. -/
def namedQuery (scopes : List String) (test : Test) (limit : Nat) (db : Database) : Query :=
  byScopesAndName (namedScopes scopes) test (remaining limit (globalCount scopes test db))

theorem joinedNames_eq (hl : 1 ≤ limit) : joinedNames scopes test limit db =
    (scopes.eraseDups.flatMap
      (rowsOf (globalFound scopes test limit db) (nestedFound scopes test limit db))).take limit := by
  rw [joinedNames, mergeScopes_eq scopes [] _ [] hl fun _ => rfl]
  simp [List.removeAll]

theorem remaining_le (hmax : limit ≤ maxLimit) (n : Nat) : remaining limit n ≤ maxLimit :=
  Nat.max_le.mpr ⟨Nat.le_trans (Nat.sub_le _ _) hmax, by decide⟩

/-- Where anything is answered, the limit is a number to the database, and no pattern is overlong. -/
theorem usable_of_mem_joinedNames (hl : 1 ≤ limit) (hr : r ∈ joinedNames scopes test limit db) :
    test.isTooLong = false ∧ limit ≤ maxLimit := by
  -- Otherwise both queries find nothing, the second also because the first has left it the whole limit.
  have hnone : globalFound scopes test limit db = [] → nestedFound scopes test limit db ≠ [] := by
    intro hglobal hnested
    rw [joinedNames_eq hl, hglobal, hnested] at hr
    obtain ⟨scope, _, hr⟩ := List.mem_flatMap.mp (List.mem_of_mem_take hr)
    simp [rowsOf] at hr
  constructor
  · by_contra hlong
    have hlong : test.isTooLong := by simpa using hlong
    refine hnone ?_ (found_of_isTooLong (c := .column .name test) (by simp [byScopesAndName]) hlong)
    rw [globalFound]
    split
    · exact found_of_isTooLong (c := .globalNamed test) (by simp [byScopeAndName]) hlong
    · rfl
  · by_contra hlarge
    have hlarge : maxLimit < limit := Nat.lt_of_not_le hlarge
    have hglobal : globalFound scopes test limit db = [] := by
      rw [globalFound]
      split
      · exact found_of_limit hlarge
      · rfl
    refine hnone hglobal ?_
    rw [nestedFound, hglobal]
    exact found_of_limit (Nat.lt_of_lt_of_le hlarge (Nat.le_max_left _ _))

section Usable

variable (hs : db.Sound) (hp : db.Projected) (ht : test.isTooLong = false) (hcount : test.valueCount ≤ 2)
  (hmax : limit ≤ maxLimit)

include hs hp ht hcount hmax

theorem globalFound_eq : globalFound scopes test limit db =
    if globalScope ∈ scopes then (globalNamed db test).take limit else [] := by
  have hsmall : (byScopeAndName globalScope test limit).isTooLarge = false :=
    isTooLarge_byScopeAndName_global (.inr rfl) (Nat.le_trans hcount (by decide)) limit
  rw [globalFound, found_of_run hsmall (run_byScopeAndName_global hs hp ht (.inr rfl) hmax)]
  simp [keepKinds]

theorem nestedFound_eq : nestedFound scopes test limit db =
    if (namedQuery scopes test limit db).isTooLarge then []
    else ((namedQuery scopes test limit db).visited db).take (namedQuery scopes test limit db).limit := by
  -- Where the global scope alone has more rows than the limit, one is still asked for.
  have hleft : remaining limit (globalFound scopes test limit db).length =
      remaining limit (globalCount scopes test db) := by
    rw [globalFound_eq hs hp ht hcount hmax, globalCount, remaining, remaining]
    split
    · rw [List.length_take]
      omega
    · rfl
  have hshort : ∀ c ∈ (namedQuery scopes test limit db).conditions, c.isTooLong = false := by
    simp only [namedQuery, byScopesAndName, List.forall_mem_cons]
    exact ⟨rfl, ht, List.forall_mem_nil _⟩
  have hrun : (namedQuery scopes test limit db).run db = _ := run_eq (remaining_le hmax _) hshort
  rw [nestedFound, hleft]
  change found (namedQuery scopes test limit db) [] db = _
  split
  · rw [found, if_pos ‹_›]
  · rename_i hsmall
    rw [found_of_run (Bool.eq_false_iff.mpr hsmall) hrun]
    rfl

end Usable

/-- A whole name in scopes other than the global one finds the first rows by id. -/
theorem nestedFound_is (hs : db.Sound) (hp : db.Projected) (hl : 1 ≤ limit) (hmax : limit ≤ maxLimit)
    (hglobal : globalScope ∉ scopes) (hfew : scopes.length < maxValues) (name : String) :
    nestedFound scopes (.is name) limit db =
      (db.tags.filter fun r => r.tag.scope ∈ scopes ∧ r.tag.name = name).take limit := by
  have hnamed : namedScopes scopes = scopes :=
    List.filter_eq_self.mpr fun scope hm => decide_eq_true fun he => hglobal (he ▸ hm)
  have hquery : namedQuery scopes (.is name) limit db = byScopesAndName scopes (.is name) limit := by
    rw [namedQuery, hnamed, globalCount, if_neg hglobal]
    exact congrArg _ (Nat.max_eq_left hl)
  have hsmall : (byScopesAndName scopes (.is name) limit).isTooLarge = false := by
    unfold maxValues at hfew
    simp [isTooLarge, byScopesAndName, Condition.valueCount, Test.valueCount, maxConditions, maxValues]
    omega
  have hcount : (Test.is name).valueCount ≤ 2 := Nat.le_succ 1
  rw [nestedFound_eq hs hp rfl hcount hmax, hquery, hsmall, visited_byScopesAndName_is hs]
  rfl

/-- Where a row of a later scope is answered, so are all rows of the global scope, if that is earlier, and
those rows of an earlier scope that its query has come to. -/
theorem joinedNames_of_later (hs : db.Sound) (hp : db.Projected) (hcount : test.valueCount ≤ 2)
    (hl : 1 ≤ limit) {front back : List String} {row : Row}
    (hr : r ∈ joinedNames (front ++ back) test limit db) (hlater : r.tag.scope ∉ front)
    (hrow : row ∈ db.tags) (hearlier : row.tag.scope ∈ front) (hname : test.holds row.tag.name)
    (hcome : row.tag.scope = globalScope ∨ (namedQuery (front ++ back) test limit db).isTooLarge = false ∧
      row ∈ ((namedQuery (front ++ back) test limit db).visited db).take
        (namedQuery (front ++ back) test limit db).limit) :
    row ∈ joinedNames (front ++ back) test limit db := by
  obtain ⟨ht, hmax⟩ := usable_of_mem_joinedNames hl hr
  have hglobal : globalFound (front ++ back) test limit db = _ := globalFound_eq hs hp ht hcount hmax
  have hnested : nestedFound (front ++ back) test limit db = _ := nestedFound_eq hs hp ht hcount hmax
  rw [joinedNames_eq hl] at hr ⊢
  have hscope : ∀ scope, ∀ r ∈ rowsOf (globalFound (front ++ back) test limit db)
      (nestedFound (front ++ back) test limit db) scope, r.tag.scope = scope := by
    intro scope r hr
    unfold rowsOf at hr
    split at hr
    · rw [hglobal] at hr
      split at hr
      · have hm := List.mem_filter.mp (List.mem_of_mem_take hr)
        rw [(of_decide_eq_true hm.2).1]
        exact Eq.symm ‹_›
      · cases hr
    · exact of_decide_eq_true (List.mem_filter.mp hr).2
  obtain ⟨hlt, hall⟩ := joined_of_later hscope hr rfl hlater hearlier
  refine hall row ?_
  unfold rowsOf at hlt ⊢
  split
  · rename_i he
    -- Fewer rows than the limit were joined before the later scope, so the query was not cut.
    have hlisted : globalScope ∈ front ++ back := List.mem_append_left _ (he ▸ hearlier)
    rw [if_pos he, hglobal, if_pos hlisted, List.length_take] at hlt
    rw [hglobal, if_pos hlisted, List.take_of_length_le (by omega)]
    exact List.mem_filter.mpr ⟨hrow, decide_eq_true ⟨he, hname⟩⟩
  · rename_i hne
    obtain ⟨hsmall, hcome⟩ := hcome.resolve_left hne
    rw [hnested, if_neg (by simp [hsmall])]
    exact List.mem_filter.mpr ⟨hcome, decide_eq_true rfl⟩

end TagIndex.Store
