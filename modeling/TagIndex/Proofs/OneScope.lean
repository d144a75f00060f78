import TagIndex.Proofs.MergedScopes

/-!
# A list of one scope

A list of one scope asks the database in other words what the scope asks by itself, and joining leaves the rows as
they were found. Only the empty scope is another one in a list: there it is not taken for the global scope.
-/

namespace TagIndex

open Lookup Store Query

variable {db : Database} {test : Test} {scope : String} {limit : Nat} {r : Row}

/-! ## The query -/

theorem isBeatenBy_one (scope : String) (test : Test) : (Test.oneOf [scope]).isBeatenBy test = false := by
  unfold Test.isBeatenBy
  cases test with
  | range low high => cases high <;> rfl
  | _ => rfl

namespace Query

theorem answers_byScopesAndName_one (hs : db.Sound) :
    (byScopesAndName [scope] test limit).answers db = namedIn db test scope := by
  have hvisited : ((byScopesAndName [scope] test limit).visited db).filter (·.tag.scope = scope) = _ :=
    visited_filter hs (List.mem_singleton_self scope)
  -- No test of names beats a list of one scope, so its rows are visited by id, as those of the scope by itself.
  rw [isBeatenBy_one, if_neg Bool.false_ne_true, List.filter_eq_self.mpr] at hvisited
  · exact hvisited
  · intro r hr
    have haccepts := (List.mem_filter.mp ((visited_perm _ db).mem_iff.mp hr)).2
    exact decide_eq_true (List.mem_singleton.mp (byScopesAndName_accepts.mp haccepts).1)

theorem answers_byScopeAndName (hs : db.Sound) (hscope : ¬ (scope = "" ∨ scope = globalScope)) :
    (byScopeAndName scope test limit).answers db = namedIn db test scope := by
  rw [byScopeAndName, if_neg hscope, answers_scan hs]
  rfl

/-- A list of one scope asks what the scope asks by itself. -/
theorem run_byScopesAndName_one (hs : db.Sound) (hscope : ¬ (scope = "" ∨ scope = globalScope)) :
    (byScopesAndName [scope] test limit).run db = (byScopeAndName scope test limit).run db := by
  have hlong : (byScopesAndName [scope] test limit).meetsTooLong db =
      (byScopeAndName scope test limit).meetsTooLong db := by
    have hholds : (Test.oneOf [scope]).holds = (Test.is scope).holds := by
      funext t
      simp [Test.holds]
    have hshort : (Test.oneOf [scope]).isTooLong = (Test.is scope).isTooLong := rfl
    rw [byScopeAndName, if_neg hscope]
    simp only [meetsTooLong, byScopesAndName, Condition.meetsTooLong, hholds, hshort]
    rfl
  have hlimit : (byScopeAndName scope test limit).limit = limit := rfl
  rw [run, run, hlong, answers_byScopesAndName_one hs, answers_byScopeAndName hs hscope, hlimit]
  rfl

theorem isTooLarge_byScopesAndName_one (hscope : ¬ (scope = "" ∨ scope = globalScope)) :
    (byScopesAndName [scope] test limit).isTooLarge = (byScopeAndName scope test limit).isTooLarge := by
  rw [byScopeAndName, if_neg hscope]
  rfl

end Query

namespace Store

variable {s : Store} {q : Query} {kinds : List String} {global nested : List Row} {name : String} {isPartial : Bool}

theorem found_byScopesAndName_one (hs : db.Sound) (hscope : ¬ (scope = "" ∨ scope = globalScope)) :
    found (byScopesAndName [scope] test limit) kinds db = found (byScopeAndName scope test limit) kinds db := by
  rw [found, found, isTooLarge_byScopesAndName_one hscope, run_byScopesAndName_one hs hscope]

theorem length_found_le_limit (q : Query) (kinds : List String) (db : Database) :
    (found q kinds db).length ≤ q.limit := by
  unfold found
  split
  · exact Nat.zero_le _
  · cases hrun : q.run db with
    | error e => exact Nat.zero_le _
    | ok rows => exact Nat.le_trans (length_keepKinds_le kinds rows) (length_le_of_run hrun)

/-! ## Joining -/

theorem mergeScopes_one (scope : String) (global nested : List Row) (limit : Nat) :
    mergeScopes limit nested [scope] [] global [] = (rowsOf global nested scope).take limit := by
  show (if limit ≤ (rowsOf global nested scope).length then (rowsOf global nested scope).take limit
    else rowsOf global nested scope) = _
  split
  · rfl
  · exact (List.take_of_length_le (Nat.le_of_not_le ‹_›)).symm

theorem tagsByScopesAndName_global (hn : name ≠ "") (s : Store) :
    ((tagsByScopesAndName [globalScope] name isPartial).run s).1 =
      (((tagsByScopeAndName globalScope name isPartial).run s).1).take s.options.searchLimit := by
  have hrun : ((tagsByScopesAndName [globalScope] name isPartial).run s).1 = mergeScopes s.options.searchLimit []
      [globalScope] [] ((tagsByScopeAndName globalScope name isPartial).run s).1 [] := by
    rw [tagsByScopesAndName, if_neg (by simp [hn])]
    rfl
  rw [hrun, mergeScopes_one]
  rfl

theorem tagsByScopesAndName_one (hn : name ≠ "") (hscope : scope ≠ globalScope) (s : Store) :
    ((tagsByScopesAndName [scope] name isPartial).run s).1 =
      ((((fetch (byScopesAndName [scope] (.forName name isPartial s.options.caseSensitive)
        (remaining s.options.searchLimit 0))).run s).1).filter (·.tag.scope = scope)).take s.options.searchLimit := by
  have hnamed : [scope].filter (· ≠ globalScope) = [scope] := by simp [hscope]
  have hrun : ((tagsByScopesAndName [scope] name isPartial).run s).1 = mergeScopes s.options.searchLimit
      ((fetch (byScopesAndName [scope] (.forName name isPartial s.options.caseSensitive)
        (remaining s.options.searchLimit 0))).run s).1 [scope] [] [] [] := by
    have hlisted : [scope].contains globalScope = false := by simpa using hscope.symm
    rw [tagsByScopesAndName, if_neg (by simp [hn]), Lookup.run_limited]
    simp only [hlisted, hnamed]
    rfl
  rw [hrun, mergeScopes_one, rowsOf, if_neg hscope]

/-! ## Answers -/

theorem tagsByScopeAndName_answers (hf : s.Fresh) (hn : name ≠ "") (scope : String) (isPartial : Bool) :
    s.Answered (· = found (byScopeAndName scope (.forName name isPartial s.options.caseSensitive)
      s.options.searchLimit) [] s.database) ((tagsByScopeAndName scope name isPartial).run s).1 := by
  rw [tagsByScopeAndName, if_neg hn, Lookup.run_named, Lookup.run_limited]
  exact hf.isCurrent.fetchKinds_answers (fun _ _ htext => kindsText_eq_empty htext) _

/-- The rows have the scope, and the name as it is looked for. -/
theorem mem_tagsByScopeAndName (h : s.Reachable) (hf : s.Fresh)
    (hu : scope = "" ∨ scope = globalScope → s.Unscathed)
    (hr : r ∈ ((tagsByScopeAndName scope name isPartial).run s).1) : r ∈ s.database.tags ∧
      r.tag.scope = (if scope = "" then globalScope else scope) ∧
      (Test.forName name isPartial s.options.caseSensitive).holds r.tag.name := by
  rw [tagsByScopeAndName] at hr
  split at hr
  · cases hr
  · rw [Lookup.run_named, Lookup.run_limited] at hr
    obtain ⟨hmem, haccepts⟩ := IsCurrentBy.mem_fetchKinds hf.isCurrent hr
    have hnames : scope = "" ∨ scope = globalScope → s.database.Sound ∧ s.database.Projected :=
      fun hscope => ⟨h.sound_database, (hu hscope).projected_database⟩
    exact ⟨hmem, (accepts_byScopeAndName hnames hmem).mp haccepts⟩

/-- What is left of a whole limit is that limit, but for a limit of zero, which joining applies. -/
theorem take_found_remaining (db : Database) (scope : String) (test : Test) (limit : Nat) :
    ((found (byScopesAndName [scope] test (remaining limit 0)) [] db).filter (·.tag.scope = scope)).take limit =
      found (byScopesAndName [scope] test limit) [] db := by
  have hlength : (found (byScopesAndName [scope] test limit) [] db).length ≤ limit := length_found_le_limit _ _ _
  rcases Nat.eq_zero_or_pos limit with rfl | hl
  · rw [List.take_zero]
    exact (List.eq_nil_of_length_eq_zero (Nat.le_zero.mp hlength)).symm
  · have hremaining : remaining limit 0 = limit := Nat.max_eq_left hl
    rw [hremaining, List.filter_eq_self.mpr, List.take_of_length_le hlength]
    intro r hr
    exact decide_eq_true (List.mem_singleton.mp (byScopesAndName_accepts.mp (mem_found hr).2).1)

theorem tagsByScopesAndName_answers (hf : s.Fresh) (hn : name ≠ "") (hscope : scope ≠ globalScope) (isPartial : Bool) :
    s.Answered (· = found (byScopesAndName [scope] (.forName name isPartial s.options.caseSensitive)
      s.options.searchLimit) [] s.database) ((tagsByScopesAndName [scope] name isPartial).run s).1 := by
  rw [tagsByScopesAndName_one hn hscope]
  have hfetched := hf.isCurrent.fetchKinds_answers (fun _ _ htext => kindsText_eq_empty htext)
    (byScopesAndName [scope] (.forName name isPartial s.options.caseSensitive) (remaining s.options.searchLimit 0))
  rcases hfetched with hfound | ⟨hr, hnone⟩
  · left
    rw [fetch, hfound, take_found_remaining]
  · right
    rw [fetch, hnone]
    exact ⟨hr, List.take_nil⟩

theorem tagsByScopesAndName_global_eq (hf : s.Fresh) (hn : name ≠ "") (isPartial : Bool) :
    ((tagsByScopesAndName [globalScope] name isPartial).run s).1 =
      ((tagsByScopeAndName globalScope name isPartial).run s).1 := by
  rw [tagsByScopesAndName_global hn]
  rcases tagsByScopeAndName_answers hf hn globalScope isPartial with hfound | ⟨_, hnone⟩
  · rw [hfound]
    exact List.take_of_length_le (length_found_le_limit _ _ _)
  · rw [hnone, List.take_nil]

/-- The listed scope is taken as it is, also if it is empty. -/
theorem found_byScopesAndName_short (hs : db.Sound) (ht : test.isTooLong = false) (hcount : test.valueCount ≤ 2)
    (hmax : limit ≤ maxLimit) (scope : String) :
    found (byScopesAndName [scope] test limit) [] db = (namedIn db test scope).take limit := by
  have hsmall : (byScopesAndName [scope] test limit).isTooLarge = false := by
    refine Bool.eq_false_iff.mpr fun hlarge => Nat.not_lt.mpr ?_ (isTooLarge_byScopesAndName.mp hlarge)
    exact Nat.le_trans (Nat.add_le_add_left hcount _) (by decide : 1 + 2 ≤ maxValues)
  have hshort : ∀ c ∈ (byScopesAndName [scope] test limit).conditions, c.isTooLong = false := by
    simp only [byScopesAndName, List.forall_mem_cons]
    exact ⟨rfl, ht, List.forall_mem_nil _⟩
  rw [found_of_run hsmall (run_eq hmax hshort), answers_byScopesAndName_one hs]
  rfl

theorem mem_listed (hf : s.Fresh) (hn : name ≠ "") (hscope : scope ≠ globalScope)
    (hr : r ∈ ((tagsByScopesAndName [scope] name isPartial).run s).1) :
    r ∈ s.database.tags ∧ r.tag.scope = scope ∧ Test.Matches name isPartial s.options.caseSensitive r.tag.name := by
  rcases tagsByScopesAndName_answers hf hn hscope isPartial with hfound | ⟨_, hnone⟩
  · rw [hfound] at hr
    obtain ⟨hmem, haccepts⟩ := mem_found hr
    obtain ⟨hlisted, hname⟩ := byScopesAndName_accepts.mp haccepts
    exact ⟨hmem, List.mem_singleton.mp hlisted, Test.holds_forName.mp hname⟩
  · rw [hnone] at hr
    cases hr

theorem listed_eq_one (h : s.Reachable) (hf : s.Fresh) (hn : name ≠ "") (hscope : ¬ (scope = "" ∨ scope = globalScope)) :
    let one := ((tagsByScopeAndName scope name isPartial).run s).1
    let listed := ((tagsByScopesAndName [scope] name isPartial).run s).1
    listed = one ∨ ¬ s.Readable ∧ (listed = [] ∨ one = []) := by
  intro one listed
  have hlisted : s.Answered _ listed := tagsByScopesAndName_answers hf hn (fun he => hscope (.inr he)) isPartial
  have hone : s.Answered _ one := tagsByScopeAndName_answers hf hn scope isPartial
  rcases hlisted with hfound | ⟨hr, hnone⟩
  · rcases hone with hfound' | ⟨hr, hnone⟩
    · rw [hfound, hfound', found_byScopesAndName_one h.sound_database hscope]
      exact .inl rfl
    · exact .inr ⟨hr, .inr hnone⟩
  · exact .inr ⟨hr, .inl hnone⟩

end Store
end TagIndex
