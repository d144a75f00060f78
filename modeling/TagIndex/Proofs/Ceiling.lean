import TagIndex.Proofs.Answers

/-!
# The ceiling

A lookup of one query answers no more rows than the query's limit, and no kept answer is longer. The
search limit so bounds every list of tags, whatever the database holds, but the one that joins the answers
of two queries without cutting it.
-/

namespace TagIndex

open Lookup Relation

/-! ## Kept answers -/

namespace Cache

/-- No kept answer is longer than the limit of its query. -/
def IsBounded (c : Cache) : Prop :=
  ∀ e ∈ c.entries, ∃ q kinds, Query.key q kinds = e.1 ∧ e.2.length ≤ q.limit

variable {c c' c'' : Cache}

theorem isBounded_of_empty (h : c.entries = []) : c.IsBounded := by simp [IsBounded, h]

theorem IsBounded.remains (h : c.IsBounded) (hr : c.Remains c') : c'.IsBounded := by
  rcases hr with rfl | he
  · exact h
  · exact isBounded_of_empty he

theorem IsBounded.keep (h : c.IsBounded) {q : Query} {rows : List Row} (hl : rows.length ≤ q.limit)
    (kinds : List String) : (c.keep (q.key kinds) rows).IsBounded := by
  intro e he
  rcases mem_of_keep he with rfl | he
  · exact ⟨q, kinds, rfl, hl⟩
  · exact h e he

theorem IsBounded.of_find? (h : c.IsBounded) {q : Query} {kinds : List String} {rows : List Row}
    (hk : c.find? (q.key kinds) = some rows) : rows.length ≤ q.limit := by
  obtain ⟨q', kinds', hkey, hl⟩ := h _ (mem_of_find? hk)
  obtain ⟨rfl, _⟩ := Query.key_eq_iff.mp hkey
  exact hl

end Cache

/-! ## Lookups of one query -/

namespace Store

variable {s t : Store} {L : Nat}

/-- The session has the given search limit, and its kept answers keep within their limits. -/
structure Bounded (limit : Nat) (s : Store) : Prop where
  cache : s.cache.IsBounded
  limit : s.options.searchLimit = limit

theorem length_keepKinds_le (kinds : List String) (rows : List Row) :
    (keepKinds kinds rows).length ≤ rows.length := (keepKinds_sublist kinds rows).length_le

theorem Bounded.askDatabase {α : Type} (h : s.Bounded L) (f : Database → Except Fault α) :
    ((Store.askDatabase f).run s).2.Bounded L where
  cache := h.cache.remains (s.askDatabase_remains f).1
  limit := (congrArg _ (s.askDatabase_remains f).2).trans h.limit

theorem fetchKinds_meets (q : Query) (kinds : List String) :
    Meets (Bounded L) (fetchKinds q kinds) (·.length ≤ q.limit) := by
  intro s h
  have hasked : ∀ rows, ((Store.askDatabase q.run).run s).1 = some rows →
      (keepKinds kinds rows).length ≤ q.limit := by
    intro rows hrows
    rcases s.askDatabase_cases q.run with ⟨found, _, _, hrun, hsome, _⟩ | ⟨hnone, _⟩
    · obtain rfl : found = rows := Option.some.inj (hsome.symm.trans hrows)
      exact Nat.le_trans (length_keepKinds_le kinds found) (Query.length_le_of_run hrun)
    · rw [hnone] at hrows
      cases hrows
  constructor
  · have ha := h.askDatabase q.run
    rcases s.fetchKinds_cases q kinds with hs | hs | ⟨rows, hrows, hs⟩ <;> rw [hs]
    · exact h
    · exact ha
    · exact ⟨ha.cache.keep (hasked rows hrows) kinds, ha.limit⟩
  · rw [fetchKinds_answer]
    split
    · exact Nat.zero_le _
    · cases hk : (if s.options.useCache then s.cache.find? (q.key kinds) else none) with
      | some rows => exact h.cache.of_find? (Option.ite_none_right_eq_some.mp hk).2
      | none =>
          cases hrows : ((Store.askDatabase q.run).run s).1 with
          | none => exact Nat.zero_le _
          | some rows => exact hasked rows hrows

theorem meets_of_limit {α : Type} {f : Nat → Lookup α} {Q : α → Prop}
    (hf : Meets (Bounded L) (f L) Q) : Meets (Bounded L) (searchLimit >>= f) Q := by
  rintro s ⟨hc, rfl⟩
  exact hf s ⟨hc, rfl⟩

theorem nameTest_meets (name : String) (isPartial : Bool) :
    Meets (Bounded L) (nameTest name isPartial) fun _ => True :=
  .read fun _ _ => trivial

/-- A query with at most the search limit. -/
theorem limited_meets {q : Nat → Query} (hq : ∀ n, (q n).limit ≤ n) (kinds : List String) :
    Meets (Bounded L) (do fetchKinds (q (← searchLimit)) kinds) (·.length ≤ L) :=
  meets_of_limit ((fetchKinds_meets _ _).imp fun _ h => Nat.le_trans h (hq _))

/-! ## Lookups of several queries -/

theorem length_distinctRows_le (rows : List Row) : (distinctRows rows).length ≤ rows.length := by
  have hfold : ∀ (rows kept : List Row),
      (rows.foldl (fun kept r => if kept.any (·.id = r.id) then kept else kept ++ [r]) kept).length ≤
        kept.length + rows.length := by
    intro rows
    induction rows with
    | nil => exact fun _ => Nat.le_refl _
    | cons r rows ih =>
        intro kept
        rw [List.foldl_cons, List.length_cons]
        refine Nat.le_trans (ih _) ?_
        split
        · omega
        · rw [List.length_append, List.length_singleton]
          omega
  exact Nat.le_trans (hfold rows []) (Nat.le_of_eq (Nat.zero_add _))

theorem length_fileScopedTags {file : String} (hf : file ≠ "") (s : Store) (name : String)
    (kinds : List String) :
    let anonymous := (fetchKinds (Query.anonymousOfFile file name s.options.searchLimit) kinds).run s
    let limit := anonymous.2.options.searchLimit
    let members := ((fetch (Query.membersOfFile file name limit)).run anonymous.2).1
    ((fileScopedTags file name kinds).run s).1.length = (distinctRows (anonymous.1 ++ members)).length := by
  intro anonymous limit members
  rw [fileScopedTags, if_neg hf, ← List.length_mergeSort (distinctRows (anonymous.1 ++ members))]
  rfl

theorem fileScopedTags_meets (file name : String) (kinds : List String) :
    Meets (Bounded L) (fileScopedTags file name kinds) (·.length ≤ 2 * L) := by
  refine .ite (.pure (Nat.zero_le _)) (meets_of_limit ?_)
  refine (fetchKinds_meets _ _).bind fun anonymous ha => meets_of_limit ?_
  refine (fetchKinds_meets _ _).bind fun members hm => .pure ?_
  change anonymous.length ≤ L at ha
  change members.length ≤ L at hm
  have hd := length_distinctRows_le (anonymous ++ members)
  rw [List.length_append] at hd
  rw [sortByLine, List.length_mergeSort]
  omega

theorem tagsByScopeAndName_meets (scope name : String) (isPartial : Bool) :
    Meets (Bounded L) (tagsByScopeAndName scope name isPartial) (·.length ≤ L) := by
  refine .ite (.pure (Nat.zero_le _)) ((nameTest_meets _ _).bind fun test _ => ?_)
  exact limited_meets (fun _ => Nat.le_refl _) []

theorem length_mergeScopes_le {limit : Nat} {nested : List Row} (scopes merged : List String)
    (global tags : List Row) (h : tags.length ≤ limit) :
    (mergeScopes limit nested scopes merged global tags).length ≤ limit := by
  induction scopes generalizing merged global tags with
  | nil => exact h
  | cons scope scopes ih =>
      unfold mergeScopes
      split
      · exact ih _ _ _ h
      · dsimp only
        generalize tags ++ (if scope = globalScope then global else _) = tags
        split
        · exact List.length_take_le _ _
        · exact ih _ _ _ (by omega)

/-- Whatever the two queries answer, joining cuts it. -/
theorem joinNamed_meets (scopes : List String) (name : String) (isPartial : Bool) (global : List Row) :
    Meets (Bounded L) (joinNamed L scopes name isPartial global) (·.length ≤ L) := by
  have hmerge : ∀ nested : List Row, Meets (Bounded L) (pure (mergeScopes L nested scopes [] global [])) (·.length ≤ L) :=
    fun nested => .pure (length_mergeScopes_le _ _ _ _ (Nat.zero_le _))
  refine .ite (.pure_bind (hmerge [])) ((nameTest_meets _ _).bind fun test _ => ?_)
  exact (fetchKinds_meets _ _).bind fun nested _ => hmerge nested

theorem tagsByScopesAndName_meets (scopes : List String) (name : String) (isPartial : Bool) :
    Meets (Bounded L) (tagsByScopesAndName scopes name isPartial) (·.length ≤ L) := by
  rw [tagsByScopesAndName_eq]
  refine .ite (.pure (Nat.zero_le _)) (meets_of_limit (.ite ?_ (joinNamed_meets scopes name isPartial [])))
  exact (tagsByScopeAndName_meets _ _ _).bind fun global _ => joinNamed_meets scopes name isPartial global

/-- A scope is asked for what is left of the limit, which is some as long as the walk goes on. -/
theorem tagsOfScopes_meets (kinds scopes : List String) (tags : List Row) (h : tags.length < L) :
    Meets (Bounded L) (tagsOfScopes L kinds scopes tags) (·.length ≤ L) := by
  induction scopes generalizing tags with
  | nil => exact .pure (Nat.le_of_lt h)
  | cons scope scopes ih =>
      refine (fetchKinds_meets _ _).bind fun found hfound => ?_
      have hall : (tags ++ found).length ≤ L := by
        change found.length ≤ max (L - tags.length) 1 at hfound
        rw [List.length_append]
        omega
      dsimp only
      split
      · exact .pure hall
      · exact ih _ (by omega)

end Store

/-! ## Questions -/

namespace Question

open Store

/-- The tags that answer a question for a list of tags. -/
def tags : Question → Lookup (List Row)
  | tagsByFile file => Store.tagsByFile file
  | tagsByFileAndLine file line => Store.tagsByFileAndLine file line
  | tagsByKindAndFile kinds file sorting => Store.tagsByKindAndFile kinds file sorting
  | fileScopedTags file name kinds => Store.fileScopedTags file name kinds
  | tagsByScope scope => Store.tagsByScope scope
  | tagsByScopeAndName scope name isPartial => Store.tagsByScopeAndName scope name isPartial
  | tagsByScopesAndName scopes name isPartial => Store.tagsByScopesAndName scopes name isPartial
  | tagsByScopesAndKind scopes kinds => Store.tagsByScopesAndKind scopes kinds
  | tagsByScopeAndKind scope kinds filter => Store.tagsByScopeAndKind scope kinds filter
  | tagsByKind kinds sorting => Store.tagsByKind kinds sorting
  | tagsByPath paths => Store.tagsByPath paths
  | tagsByPathLimit path limit => Store.tagsByPathLimit path limit
  | tagsByPathAndKind path kinds limit => Store.tagsByPathAndKind path kinds limit
  | tagsByKindAndPath kinds path => Store.tagsByKindAndPath kinds path
  | tagsByPathParts parts => Store.tagsByPathParts parts
  | tagsByName name isPartial => Store.tagsByName name isPartial
  | tagsByPartName part => Store.tagsByPartName part
  | tagsByNameAndParent name parent => Store.tagsByNameAndParent name parent
  | parameters functionPath => Store.parameters functionPath
  | lambdas functionPath => Store.lambdas functionPath
  | _ => pure []

/-- How many tags can answer a question when the search limit is `limit`. -/
def ceiling (limit : Nat) : Question → Nat
  | fileScopedTags .. => 2 * limit
  | _ => limit

theorem tags_meets {L : Nat} (hl : 1 ≤ L) (question : Question) :
    Meets (Bounded L) question.tags (·.length ≤ question.ceiling L) := by
  have hlimited : ∀ {q : Nat → Query}, (∀ n, (q n).limit = n) → ∀ kinds,
      Meets (Bounded L) (do fetchKinds (q (← searchLimit)) kinds) (·.length ≤ L) :=
    fun hq => limited_meets fun n => Nat.le_of_eq (hq n)
  have hnone : Meets (Bounded L) (pure []) fun rows : List Row => rows.length ≤ L :=
    .pure (Nat.zero_le _)
  cases question with
  | tagsByFile file => exact hlimited (fun _ => rfl) []
  | tagsByFileAndLine file line => exact hlimited (fun _ => rfl) []
  | tagsByKindAndFile kinds file sorting => exact hnone.ite (hlimited (fun _ => rfl) [])
  | fileScopedTags file name kinds => exact fileScopedTags_meets file name kinds
  | tagsByScope scope => exact hlimited (fun _ => rfl) []
  | tagsByScopeAndName scope name isPartial => exact tagsByScopeAndName_meets scope name isPartial
  | tagsByScopesAndName scopes name isPartial => exact tagsByScopesAndName_meets scopes name isPartial
  | tagsByScopesAndKind scopes kinds =>
      exact hnone.ite (meets_of_limit (tagsOfScopes_meets kinds scopes [] hl))
  | tagsByScopeAndKind scope kinds filter => exact hnone.ite (hlimited (fun _ => rfl) [])
  | tagsByKind kinds sorting => exact hnone.ite (hlimited (fun _ => rfl) [])
  | tagsByPath paths => exact hnone.ite (hlimited (fun _ => rfl) [])
  | tagsByPathLimit path limit => exact hnone.ite (limited_meets (fun _ => Nat.min_le_right _ _) [])
  | tagsByPathAndKind path kinds limit =>
      exact hnone.ite (limited_meets (fun _ => Nat.min_le_right _ _) [])
  | tagsByKindAndPath kinds path => exact hnone.ite (hlimited (fun _ => rfl) kinds)
  | tagsByPathParts parts => exact hnone.ite (hlimited (fun _ => rfl) [])
  | tagsByName name isPartial =>
      exact hnone.ite ((nameTest_meets _ _).bind fun test _ => hlimited (fun _ => rfl) [])
  | tagsByPartName part => exact hnone.ite (hlimited (fun _ => rfl) [])
  | tagsByNameAndParent name parent =>
      refine hnone.ite (meets_of_limit ?_)
      refine (fetchKinds_meets _ _).bind fun rows hrows => .pure ?_
      exact Nat.le_trans (List.length_filter_le _ _) hrows
  | parameters functionPath => exact hlimited (fun _ => rfl) []
  | lambdas functionPath => exact hlimited (fun _ => rfl) []
  | _ => exact hnone

end Question

namespace Store

variable {s t : Store}

/-- Questions keep the kept answers within their limits. -/
theorem isBounded_ask (h : s.cache.IsBounded) (question : Question) :
    (question.ask s).cache.IsBounded :=
  ask_keeps (J := (·.cache.IsBounded)) (A := fun _ => True) trivial
    (fun q kinds _ t ht => (fetchKinds_meets q kinds t ⟨ht, rfl⟩).1.cache)
    (fun _ hm ht => hm.cache ▸ ht) (fun e ht => ht.remains (heal_remains _ e).1)
    question.filtersBy_true h

/-- After any steps, and whatever other processes write, no question is answered with more tags than the
search limit, save that for the tags that a file sees, which can have twice as many. -/
theorem tags_within_ceiling (h : s.IsNew) (hr : ReflTransGen (fun s s' => ∃ step, Step.act s step = s') s t)
    (hl : 1 ≤ t.options.searchLimit) (question : Question) :
    (question.tags.run t).1.length ≤ question.ceiling t.options.searchLimit := by
  suffices hb : t.cache.IsBounded from (question.tags_meets hl t ⟨hb, rfl⟩).2
  clear hl
  induction hr with
  | refl => exact Cache.isBounded_of_empty h.cache
  | tail _ hn ih =>
      obtain ⟨step, rfl⟩ := hn
      by_cases hask : ∃ question, step = .ask question
      · obtain ⟨question, rfl⟩ := hask
        exact isBounded_ask ih question
      · exact ih.remains (Step.act_remains _ fun question hq => hask ⟨question, hq⟩)

/-- One tag of an anonymous scope and one variable are two tags of their file, with a limit of one. -/
theorem tags_within_ceiling_two :
    let tag (name kind scope : String) : Tag := { name, file := "f.c", kind, path := name, scope }
    let t := Step.act (Step.act (Step.act {} (.setSearchLimit 1)) (.openPath "tags.db"))
      (.storeTags [tag "x" "enumerator" "__anon1", tag "y" "variable" "<global>"] 0 true)
    let question := Question.fileScopedTags "f.c" "" []
    t.options.searchLimit = 1 ∧ (question.tags.run t).1.length = 2 ∧
      (question.tags.run t).1.length ≤ question.ceiling t.options.searchLimit := by
  intro tag t question
  have hr : ReflTransGen (fun s s' => ∃ step, Step.act s step = s') {} t :=
    ((ReflTransGen.single ⟨.setSearchLimit 1, rfl⟩).tail ⟨.openPath "tags.db", rfl⟩).tail
      ⟨.storeTags [tag "x" "enumerator" "__anon1", tag "y" "variable" "<global>"] 0 true, rfl⟩
  have hlimit : t.options.searchLimit = 1 := by decide +kernel
  have htwo : (question.tags.run t).1.length = 2 := by
    rw [show question.tags = Store.fileScopedTags "f.c" "" [] from rfl,
      length_fileScopedTags (show "f.c" ≠ "" by decide)]
    decide +kernel
  exact ⟨hlimit, htwo, tags_within_ceiling ⟨rfl, rfl, rfl⟩ hr (Nat.le_of_eq hlimit.symm) question⟩

end Store
end TagIndex
