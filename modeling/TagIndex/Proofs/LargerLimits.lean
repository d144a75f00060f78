import Mathlib.Data.List.Flatten
import TagIndex.Proofs.Alongside
import TagIndex.Proofs.Asked
import TagIndex.Proofs.Locality

/-!
# Larger search limits

A query with a larger limit goes on where it ended with the smaller one. A lookup of several queries leaves more
to the later ones, too, because what an earlier one finds beyond its old limit never exceeds what the limit has
grown by; so every row comes at least as often as before.
-/

namespace TagIndex

open Lookup Store

/-! ## Queries -/

variable {q q' : Query} {kinds : List String} {db : Database} {n n' : Nat} {rows rows' more more' : List Row}

/-- The second query asks what the first one asks, up to a larger limit. -/
structure Query.Widens (q q' : Query) : Prop where
  conditions : q'.conditions = q.conditions
  sorting : q'.sorting = q.sorting
  limit : q.limit ≤ q'.limit
  most : q'.limit ≤ maxLimit

namespace Query.Widens

variable (h : q.Widens q')

include h

theorem isTooLarge : q'.isTooLarge = q.isTooLarge := by
  rw [Query.isTooLarge, Query.isTooLarge, h.conditions]

theorem meetsTooLong : q'.meetsTooLong db = q.meetsTooLong db := by
  rw [Query.meetsTooLong, Query.meetsTooLong, h.conditions]

theorem answers : q'.answers db = q.answers db := by
  obtain ⟨conditions, sorting, limit⟩ := q
  obtain ⟨conditions', sorting', limit'⟩ := q'
  obtain rfl : conditions' = conditions := h.conditions
  obtain rfl : sorting' = sorting := h.sorting
  rfl

end Query.Widens

/-- What a query finds up to the limit `n` and what it finds up to `n'`. -/
structure Grown (n n' : Nat) (rows rows' : List Row) : Prop where
  initial : rows <+: rows'
  most : rows'.length ≤ n'
  more : rows'.length + n ≤ rows.length + n'

theorem Grown.nil (h : n ≤ n') : Grown n n' [] [] := ⟨List.prefix_rfl, Nat.zero_le _, by simpa using h⟩

theorem Grown.take (h : n ≤ n') (rows : List Row) : Grown n n' (rows.take n) (rows.take n') where
  initial := List.take_prefix_take_left h
  most := List.length_take_le _ _
  more := by
    rw [List.length_take, List.length_take]
    omega

theorem Grown.filter (h : Grown n n' rows rows') (p : Row → Bool) :
    Grown n n' (rows.filter p) (rows'.filter p) where
  initial := h.initial.filter p
  most := Nat.le_trans (List.length_filter_le _ _) h.most
  more := by
    obtain ⟨⟨added, rfl⟩, _, hmore⟩ := h
    rw [List.length_append] at hmore
    rw [List.filter_append, List.length_append]
    have hadded := List.length_filter_le p added
    omega

theorem Grown.keepKinds (h : Grown n n' rows rows') (kinds : List String) :
    Grown n n' (keepKinds kinds rows) (keepKinds kinds rows') := by
  unfold Store.keepKinds
  split
  · exact h
  · exact h.filter _

theorem found_of_tooLong (h : q.meetsTooLong db) : found q kinds db = [] := by
  unfold found
  split
  · rfl
  · unfold Query.run
    split
    · rfl
    split
    · simp [Except.toOption, keepKinds]
    · rfl

theorem found_grown (h : q.Widens q') (kinds : List String) (db : Database) :
    Grown q.limit q'.limit (found q kinds db) (found q' kinds db) := by
  cases hlarge : q.isTooLarge with
  | true =>
      have hlarge' : q'.isTooLarge := h.isTooLarge.trans hlarge
      rw [found, found, if_pos hlarge, if_pos hlarge']
      exact .nil h.limit
  | false =>
      cases hlong : q.meetsTooLong db with
      | true =>
          have hlong' : q'.meetsTooLong db := h.meetsTooLong.trans hlong
          rw [found_of_tooLong hlong, found_of_tooLong hlong']
          exact .nil h.limit
      | false =>
          have hrun := Query.run_of_not_tooLong (Nat.le_trans h.limit h.most) hlong
          have hrun' := Query.run_of_not_tooLong h.most (h.meetsTooLong.trans hlong)
          rw [found_of_run hlarge hrun, found_of_run (h.isTooLarge.trans hlarge) hrun', h.answers]
          exact (Grown.take h.limit _).keepKinds kinds

/-! ## Rows put together -/

/-- Every id comes in the second list at least as often as in the first one. -/
def KeepsIds (rows rows' : List Row) : Prop :=
  ∀ id, (rows.map (·.id)).count id ≤ (rows'.map (·.id)).count id

namespace KeepsIds

theorem of_sublist (h : rows.Sublist rows') : KeepsIds rows rows' := fun id => (h.map _).count_le id

theorem trans (h : KeepsIds rows rows') (h' : KeepsIds rows' more) : KeepsIds rows more :=
  fun id => Nat.le_trans (h id) (h' id)

theorem append (h : KeepsIds rows rows') (h' : KeepsIds more more') : KeepsIds (rows ++ more) (rows' ++ more') := by
  intro id
  rw [List.map_append, List.map_append, List.count_append, List.count_append]
  exact Nat.add_le_add (h id) (h' id)

end KeepsIds

/-- Of the rows with one id the first one is kept. -/
theorem count_distinctRows (rows : List Row) (id : Nat) :
    ((distinctRows rows).map (·.id)).count id = if id ∈ rows.map (·.id) then 1 else 0 := by
  have hfold : ∀ kept : List Row, ((rows.foldl (fun kept r => if kept.any (·.id = r.id) then kept
      else kept ++ [r]) kept).map (·.id)).count id =
        if id ∈ kept.map (·.id) then (kept.map (·.id)).count id else if id ∈ rows.map (·.id) then 1 else 0 := by
    induction rows with
    | nil =>
        intro kept
        split
        · rfl
        · exact List.count_eq_zero.mpr ‹_›
    | cons r rows ih =>
        intro kept
        have hany : kept.any (·.id = r.id) ↔ r.id ∈ kept.map (·.id) := by simp
        rw [List.foldl_cons, ih]
        simp only [List.map_cons, List.mem_cons]
        by_cases hr : r.id ∈ kept.map (·.id)
        · have hne : id ∉ kept.map (·.id) → id ≠ r.id := fun hnot he => hnot (he ▸ hr)
          rw [if_pos (hany.mpr hr)]
          split
          · rfl
          · simp only [hne ‹_›, false_or]
        · rw [if_neg fun h => hr (hany.mp h)]
          by_cases he : id = r.id
          · subst he
            simp [hr, List.count_eq_zero.mpr hr]
          · have hne : ¬ r.id = id := fun h => he h.symm
            simp [he, hne]
  exact (hfold []).trans (if_neg List.not_mem_nil)

theorem keepsIds_byLine (h : ∀ id ∈ rows.map (·.id), id ∈ rows'.map (·.id)) :
    KeepsIds (sortByLine (distinctRows rows)) (sortByLine (distinctRows rows')) := by
  have hsort : ∀ (rows : List Row) (id : Nat),
      ((sortByLine rows).map (·.id)).count id = (rows.map (·.id)).count id :=
    fun rows id => ((List.mergeSort_perm _ _).map _).count_eq id
  intro id
  rw [hsort, hsort, count_distinctRows, count_distinctRows]
  by_cases hid : id ∈ rows.map (·.id)
  · rw [if_pos hid, if_pos (h id hid)]
  · rw [if_neg hid]
    exact Nat.zero_le _

/-! ## Names in several scopes -/

variable {scopes : List String} {global global' nested nested' : List Row} {limit limit' : Nat}

theorem flatMap_rowsOf (h : globalScope ∉ scopes) :
    scopes.flatMap (rowsOf global nested) = scopes.flatMap (rowsOf [] nested) := by
  refine List.flatMap_congr fun scope hm => ?_
  have hne : scope ≠ globalScope := fun he => h (he ▸ hm)
  rw [rowsOf, rowsOf, if_neg hne, if_neg hne]

/-- Each row of a named scope comes once at most. -/
theorem length_flatMap_rowsOf_le (h : scopes.Nodup) (nested : List Row) :
    (scopes.flatMap (rowsOf [] nested)).length ≤ nested.length := by
  induction scopes generalizing nested with
  | nil => exact Nat.zero_le _
  | cons scope scopes ih =>
      obtain ⟨hnot, hrest⟩ := List.nodup_cons.mp h
      -- The scopes that follow find their rows among those of other scopes.
      have hothers : scopes.flatMap (rowsOf [] nested) =
          scopes.flatMap (rowsOf [] (nested.filter fun r => !decide (r.tag.scope = scope))) := by
        refine List.flatMap_congr fun other hm => ?_
        have hne : other ≠ scope := fun he => hnot (he ▸ hm)
        unfold rowsOf
        split
        · rfl
        · rw [List.filter_filter]
          refine List.filter_congr fun r _ => ?_
          by_cases hr : r.tag.scope = other <;> simp [hr, hne]
      have hhere : (rowsOf [] nested scope).length ≤ (nested.filter (·.tag.scope = scope)).length := by
        unfold rowsOf
        split
        · exact Nat.zero_le _
        · exact Nat.le_refl _
      have hsplit := nested.length_eq_length_filter_add fun r => decide (r.tag.scope = scope)
      have hrest := ih hrest (nested.filter fun r => !decide (r.tag.scope = scope))
      rw [List.flatMap_cons, List.length_append, hothers]
      omega

/-- The rows of the global scope stand together, those of the named scopes before and behind them. -/
theorem flatMap_rowsOf_split (h : scopes.Nodup) (hm : globalScope ∈ scopes) :
    ∃ front back : List Row → List Row, ∀ global nested : List Row,
      scopes.flatMap (rowsOf global nested) = front nested ++ global ++ back nested ∧
        (front nested).length + (back nested).length ≤ nested.length := by
  obtain ⟨front, back, rfl⟩ := List.append_of_mem hm
  obtain ⟨_, hback, hdisjoint⟩ := List.nodup_append.mp h
  have hnotfront : globalScope ∉ front := fun hm => hdisjoint _ hm _ List.mem_cons_self rfl
  have hnotback : globalScope ∉ back := (List.nodup_cons.mp hback).1
  refine ⟨fun nested => front.flatMap (rowsOf [] nested), fun nested => back.flatMap (rowsOf [] nested),
    fun global nested => ⟨?_, ?_⟩⟩
  · rw [List.flatMap_append, List.flatMap_cons, flatMap_rowsOf hnotfront, flatMap_rowsOf hnotback, List.append_assoc]
    rfl
  · have hothers : (front ++ back).Nodup :=
      h.sublist (List.Sublist.append_left (List.sublist_cons_self _ _) _)
    have hlength := length_flatMap_rowsOf_le hothers nested
    rwa [List.flatMap_append, List.length_append] at hlength

theorem nodup_eraseDups (scopes : List String) : scopes.eraseDups.Nodup := by
  match scopes with
  | [] => simp
  | scope :: scopes =>
      rw [List.eraseDups_cons, List.nodup_cons]
      refine ⟨?_, nodup_eraseDups _⟩
      simp [List.mem_eraseDups]
termination_by scopes.length
decreasing_by exact Nat.lt_succ_of_le (List.length_filter_le _ _)

theorem remaining_mono (h : Grown limit limit' global global') :
    remaining limit global.length ≤ remaining limit' global'.length := by
  have hmore := h.more
  unfold remaining
  omega

/-- The cut comes after everything, unless the global scope alone reaches the limit; then it comes behind that
scope at the latest, and what stands before that scope has not changed. -/
theorem keepsIds_mergeScopes (hl : limit ≤ limit') (hg : Grown limit limit' global global')
    (hn : Grown (remaining limit global.length) (remaining limit' global'.length) nested nested') :
    KeepsIds (mergeScopes limit nested scopes [] global []) (mergeScopes limit' nested' scopes [] global' []) := by
  rcases Nat.eq_zero_or_pos limit with rfl | hpos
  · have hnone : mergeScopes 0 nested scopes [] global [] = [] :=
      List.eq_nil_of_length_eq_zero (Nat.le_zero.mp (length_mergeScopes_le _ _ _ _ (Nat.le_refl 0)))
    rw [hnone]
    exact .of_sublist (List.nil_sublist _)
  rw [mergeScopes_eq scopes [] _ [] hpos fun _ => rfl,
    mergeScopes_eq scopes [] _ [] (Nat.lt_of_lt_of_le hpos hl) fun _ => rfl]
  have hdistinct : (scopes.removeAll []).eraseDups.Nodup := nodup_eraseDups _
  generalize (scopes.removeAll []).eraseDups = scopes at hdistinct
  rw [List.nil_append, List.nil_append]
  by_cases hfit : (scopes.flatMap (rowsOf global' nested')).length ≤ limit'
  · rw [List.take_of_length_le hfit]
    refine .of_sublist ((List.take_sublist _ _).trans (.flatMap_right _ fun scope _ => ?_))
    unfold rowsOf
    split
    · exact hg.initial.sublist
    · exact hn.initial.sublist.filter _
  · have hmost := hn.most
    have hgmore := hg.more
    have hnmore := hn.more
    unfold remaining at hmost hnmore
    by_cases hglobal : globalScope ∈ scopes
    · obtain ⟨front, back, hsplit⟩ := flatMap_rowsOf_split hdistinct hglobal
      have hlength := (hsplit global' nested').2
      rw [(hsplit _ _).1, List.length_append, List.length_append] at hfit
      -- The global scope has the whole limit, so that both times one more row is asked for.
      obtain rfl : nested = nested' := hn.initial.eq_of_length_le (by omega)
      have hprefix := (List.prefix_append_right_inj (front nested)).mpr hg.initial
      have hcut : limit ≤ (front nested ++ global).length := by
        rw [List.length_append]
        omega
      have hcut' : limit' ≤ (front nested ++ global').length := by
        rw [List.length_append]
        omega
      rw [(hsplit _ _).1, List.take_append_of_le_length hcut, (hsplit _ _).1, List.take_append_of_le_length hcut']
      refine .of_sublist (List.prefix_take_iff.mpr ⟨(List.take_prefix _ _).trans hprefix, ?_⟩).sublist
      exact Nat.le_trans (List.length_take_le _ _) hl
    · have hlength := length_flatMap_rowsOf_le hdistinct nested'
      rw [flatMap_rowsOf hglobal] at hfit
      omega

/-! ## Lookups -/

/-- These options with another search limit. -/
def Options.limited (o : Options) (n : Nat) : Options := { o with searchLimit := n }

/-- The session with another search limit and without kept answers. -/
def Store.limited (s : Store) (n : Nat) : Store := { s with options := s.options.limited n, cache := {} }

section Pairs

variable {α : Type} {L L' : Nat} {R R' : Store → Store → Prop} {Q : α → α → Prop}
  (hR : ∀ s s', R s s' → ∃ o : Options, s.options = o.limited L ∧ s'.options = o.limited L')

include hR

theorem pairs_limited {f f' : Nat → Lookup α} (h : Pairs R R' (f L) (f' L') Q) :
    Pairs R R' (searchLimit >>= f) (searchLimit >>= f') Q := by
  intro s s' hs
  obtain ⟨o, ho, ho'⟩ := hR s s' hs
  rw [run_limited, run_limited, ho, ho']
  exact h s s' hs

theorem pairs_nameTest (name : String) (isPartial : Bool) :
    Pairs R R (nameTest name isPartial) (nameTest name isPartial) (· = ·) := by
  intro s s' hs
  obtain ⟨o, ho, ho'⟩ := hR s s' hs
  refine ⟨hs, ?_⟩
  show Test.forName name isPartial s.options.caseSensitive = Test.forName name isPartial s'.options.caseSensitive
  rw [ho, ho']
  rfl

end Pairs

/-! ### Lookups of one query -/

variable {L L' : Nat}

/-- One session with the two search limits. -/
def Limits (L L' : Nat) (s s' : Store) : Prop := ∃ t : Store, s = t.limited L ∧ s' = t.limited L'

theorem Limits.options (s s' : Store) (h : Limits L L' s s') :
    ∃ o : Options, s.options = o.limited L ∧ s'.options = o.limited L' := by
  obtain ⟨t, rfl, rfl⟩ := h
  exact ⟨t.options, rfl, rfl⟩

theorem fetchKinds_limits (h : q.Widens q') (kinds : List String) :
    Pairs (Limits L L') Any (fetchKinds q kinds) (fetchKinds q' kinds) (· <+: ·) := by
  rintro _ _ ⟨t, rfl, rfl⟩
  refine ⟨trivial, ?_⟩
  rw [fetchKinds_of_empty rfl, fetchKinds_of_empty rfl]
  -- The options bear neither on what a session sees nor on what its file refuses.
  change (if t.Readable then found q kinds t.database else []) <+:
    if t.Readable then found q' kinds t.database else []
  split
  · exact (found_grown h kinds _).initial
  · exact List.prefix_rfl

theorem tags_limits (hl : L ≤ L') (hmax : L' ≤ Query.maxLimit) {question : Question} (h : question.AsksOnce) :
    Pairs (Limits L L') Any question.tags question.tags (· <+: ·) := by
  have hnone : Pairs (Limits L L') Any (pure []) (pure []) fun rows rows' : List Row => rows <+: rows' :=
    (Pairs.pure List.prefix_rfl).any
  have hlimited : ∀ q : Nat → Query, (q L).Widens (q L') → ∀ kinds, Pairs (Limits L L') Any
      (do fetchKinds (q (← searchLimit)) kinds) (do fetchKinds (q (← searchLimit)) kinds) (· <+: ·) :=
    fun q h kinds => pairs_limited Limits.options (fetchKinds_limits h kinds)
  have hname : ∀ (q : Test → Nat → Query), (∀ test, (q test L).Widens (q test L')) → ∀ name isPartial,
      Pairs (Limits L L') Any (do fetchKinds (q (← nameTest name isPartial) (← searchLimit)) [])
        (do fetchKinds (q (← nameTest name isPartial) (← searchLimit)) []) (· <+: ·) := by
    intro q hq name isPartial
    refine (pairs_nameTest Limits.options name isPartial).bind ?_
    rintro test _ rfl
    exact hlimited (q test) (hq test) []
  -- Two lookups have a bound of their own besides the search limit.
  have hleast : ∀ most, min most L ≤ min most L' := by omega
  have hmost : ∀ most, min most L' ≤ Query.maxLimit := by omega
  cases question with
  | fileScopedTags file name kinds => exact h.elim
  | tagsByScopesAndName scopes name isPartial => exact h.elim
  | tagsByScopesAndKind scopes kinds => exact h.elim
  | tagsByFile file => exact hlimited (Query.byFile file) ⟨rfl, rfl, hl, hmax⟩ []
  | tagsByFileAndLine file line => exact hlimited (Query.byFileAndLine file line) ⟨rfl, rfl, hl, hmax⟩ []
  | tagsByKindAndFile kinds file sorting =>
      exact hnone.ite (hlimited (Query.byKindAndFile kinds file sorting) ⟨rfl, rfl, hl, hmax⟩ [])
  | tagsByScope scope => exact hlimited (Query.byScope scope) ⟨rfl, rfl, hl, hmax⟩ []
  | tagsByScopeAndName scope name isPartial =>
      exact hnone.ite (hname (Query.byScopeAndName scope) (fun _ => ⟨rfl, rfl, hl, hmax⟩) name isPartial)
  | tagsByScopeAndKind scope kinds filter =>
      exact hnone.ite (hlimited (Query.byScopeAndKind scope kinds filter) ⟨rfl, rfl, hl, hmax⟩ [])
  | tagsByKind kinds sorting => exact hnone.ite (hlimited (Query.byKind kinds sorting) ⟨rfl, rfl, hl, hmax⟩ [])
  | tagsByPath paths => exact hnone.ite (hlimited (Query.byPaths paths) ⟨rfl, rfl, hl, hmax⟩ [])
  | tagsByPathLimit path most =>
      exact hnone.ite (hlimited (fun n => Query.byPath path (min most n)) ⟨rfl, rfl, hleast most, hmost most⟩ [])
  | tagsByPathAndKind path kinds most =>
      exact hnone.ite (hlimited (fun n => Query.byPathAndKind path kinds (min most n))
        ⟨rfl, rfl, hleast most, hmost most⟩ [])
  | tagsByKindAndPath kinds path => exact hnone.ite (hlimited (Query.byPath path) ⟨rfl, rfl, hl, hmax⟩ kinds)
  | tagsByPathParts parts => exact hnone.ite (hlimited (Query.byPathParts parts) ⟨rfl, rfl, hl, hmax⟩ [])
  | tagsByName name isPartial =>
      exact hnone.ite (hname Query.byName (fun _ => ⟨rfl, rfl, hl, hmax⟩) name isPartial)
  | tagsByPartName part => exact hnone.ite (hlimited (Query.byName _) ⟨rfl, rfl, hl, hmax⟩ [])
  | tagsByNameAndParent name parent =>
      refine hnone.ite (pairs_limited Limits.options ?_)
      have hwide : (Query.byName (.is name) L).Widens (Query.byName (.is name) L') := ⟨rfl, rfl, hl, hmax⟩
      exact (fetchKinds_limits hwide []).bind fun rows rows' hrows => .pure (hrows.filter _)
  | parameters functionPath => exact hlimited (Query.byKindAndScope _ functionPath) ⟨rfl, rfl, hl, hmax⟩ []
  | lambdas functionPath => exact hlimited (Query.byKindAndScope _ functionPath) ⟨rfl, rfl, hl, hmax⟩ []
  | _ => exact hnone

/-! ### Lookups of several queries -/

section SeveralQueries

variable {A : List String → Prop} {o : Options} (hl : L ≤ L') (hmax : L' ≤ Query.maxLimit)

/-- Two sessions side by side with the two search limits. -/
abbrev AlongsideLimits (A : List String → Prop) (o : Options) (L L' : Nat) : Store → Store → Prop :=
  Alongside A (o.limited L) (o.limited L')

theorem AlongsideLimits.options (s s' : Store) (h : AlongsideLimits A o L L' s s') :
    ∃ o : Options, s.options = o.limited L ∧ s'.options = o.limited L' :=
  ⟨o, Alongside.options h⟩

theorem fetchKinds_grown (hk : A kinds) (ht : Told A kinds) (h : q.Widens q') :
    Pairs (AlongsideLimits A o L L') (AlongsideLimits A o L L') (fetchKinds q kinds) (fetchKinds q' kinds)
      (Grown q.limit q'.limit) :=
  fetchKinds_alongside hk ht h.isTooLarge (.nil h.limit) (found_grown h kinds)

theorem prefix_tagsOfScopes (limit : Nat) (kinds scopes : List String) (tags : List Row) :
    Meets (fun _ => True) (tagsOfScopes limit kinds scopes tags) (tags <+: ·) := by
  induction scopes generalizing tags with
  | nil => exact .pure List.prefix_rfl
  | cons scope scopes ih =>
      have hfetch : Meets (fun _ => True) (fetchKinds (Query.byScope scope (remaining limit tags.length)) kinds)
          fun _ => True := fun _ _ => ⟨trivial, trivial⟩
      refine hfetch.bind fun found _ => ?_
      dsimp only
      split
      · exact .pure (List.prefix_append _ _)
      · exact (ih _).imp fun _ h => (List.prefix_append _ _).trans h

include hmax in
/-- As long as both go on, the rows gathered with the larger limit are more by no more than what it is larger
by, so that it leaves as much to each scope. -/
theorem tagsOfScopes_limits (hk : A kinds) (ht : Told A kinds) (scopes : List String) {tags tags' : List Row}
    (htags : KeepsIds tags tags') (hmore : tags'.length + L ≤ tags.length + L') :
    Pairs (AlongsideLimits A o L L') Any (tagsOfScopes L kinds scopes tags) (tagsOfScopes L' kinds scopes tags')
      KeepsIds := by
  induction scopes generalizing tags tags' with
  | nil => exact (Pairs.pure htags).any
  | cons scope scopes ih =>
      have hwide : (Query.byScope scope (remaining L tags.length)).Widens
          (Query.byScope scope (remaining L' tags'.length)) := by
        refine ⟨rfl, rfl, ?_, remaining_le hmax _⟩
        show max (L - tags.length) 1 ≤ max (L' - tags'.length) 1
        omega
      refine (fetchKinds_grown hk ht hwide).bind fun found found' hfound => ?_
      have hall : KeepsIds (tags ++ found) (tags' ++ found') := htags.append (.of_sublist hfound.initial.sublist)
      have hgrown : found'.length + max (L - tags.length) 1 ≤ found.length + max (L' - tags'.length) 1 := hfound.more
      dsimp only
      by_cases hend : L ≤ (tags ++ found).length
      · rw [if_pos hend]
        refine (Pairs.of_meets (P := (tags' ++ found' <+: ·)) ?_).imp (fun _ _ => id) ?_
        · exact .ite (.pure List.prefix_rfl) (prefix_tagsOfScopes _ _ _ _)
        · rintro _ rows' ⟨rfl, hrows'⟩
          exact hall.trans (.of_sublist hrows'.sublist)
      · have hlength : (tags ++ found).length = tags.length + found.length := List.length_append
        have hlength' : (tags' ++ found').length = tags'.length + found'.length := List.length_append
        rw [if_neg hend, if_neg (by omega)]
        exact ih hall (by omega)

include hl hmax

theorem tagsByScopeAndName_limits (hA : A []) (ht : Told A []) (scope name : String) (isPartial : Bool) :
    Pairs (AlongsideLimits A o L L') (AlongsideLimits A o L L') (tagsByScopeAndName scope name isPartial)
      (tagsByScopeAndName scope name isPartial) (Grown L L') := by
  refine .ite (.pure (.nil hl)) ((pairs_nameTest AlongsideLimits.options name isPartial).bind ?_)
  rintro test _ rfl
  have hwide : (Query.byScopeAndName scope test L).Widens (Query.byScopeAndName scope test L') :=
    ⟨rfl, rfl, hl, hmax⟩
  exact pairs_limited AlongsideLimits.options (fetchKinds_grown hA ht hwide)

theorem joinNamed_limits (hA : A []) (ht : Told A []) (scopes : List String) (name : String) (isPartial : Bool)
    {global global' : List Row} (hg : Grown L L' global global') :
    Pairs (AlongsideLimits A o L L') Any (joinNamed L scopes name isPartial global)
      (joinNamed L' scopes name isPartial global') KeepsIds := by
  have hjoin : ∀ nested nested', Grown (remaining L global.length) (remaining L' global'.length) nested nested' →
      Pairs (AlongsideLimits A o L L') Any (pure (mergeScopes L nested scopes [] global []))
        (pure (mergeScopes L' nested' scopes [] global' [])) KeepsIds :=
    fun _ _ hn => (Pairs.pure (keepsIds_mergeScopes hl hg hn)).any
  refine .ite (.pure_bind (hjoin _ _ (.nil (remaining_mono hg)))) ?_
  refine (pairs_nameTest AlongsideLimits.options name isPartial).bind ?_
  rintro test _ rfl
  have hwide : (Query.byScopesAndName (namedScopes scopes) test (remaining L global.length)).Widens
      (Query.byScopesAndName (namedScopes scopes) test (remaining L' global'.length)) :=
    ⟨rfl, rfl, remaining_mono hg, remaining_le hmax _⟩
  exact (fetchKinds_grown hA ht hwide).bind hjoin

theorem tagsByScopesAndName_limits (hA : A []) (ht : Told A []) (scopes : List String) (name : String)
    (isPartial : Bool) : Pairs (AlongsideLimits A o L L') Any (tagsByScopesAndName scopes name isPartial)
      (tagsByScopesAndName scopes name isPartial) KeepsIds := by
  rw [tagsByScopesAndName_eq]
  refine .ite (Pairs.pure fun _ => Nat.le_refl _).any (pairs_limited AlongsideLimits.options ?_)
  refine .ite ?_ (joinNamed_limits hl hmax hA ht scopes name isPartial (.nil hl))
  exact (tagsByScopeAndName_limits hl hmax hA ht _ _ _).bind fun _ _ =>
    joinNamed_limits hl hmax hA ht scopes name isPartial

theorem fileScopedTags_limits (hA : A []) (hn : Told A []) (hk : A kinds) (ht : Told A kinds)
    (file name : String) : Pairs (AlongsideLimits A o L L') Any (fileScopedTags file name kinds)
      (fileScopedTags file name kinds) KeepsIds := by
  refine .ite (Pairs.pure fun _ => Nat.le_refl _).any (pairs_limited AlongsideLimits.options ?_)
  have hwide : (Query.anonymousOfFile file name L).Widens (Query.anonymousOfFile file name L') :=
    ⟨rfl, rfl, hl, hmax⟩
  refine (fetchKinds_grown hk ht hwide).bind fun anonymous anonymous' ha => ?_
  refine pairs_limited AlongsideLimits.options ?_
  have hwide : (Query.membersOfFile file name L).Widens (Query.membersOfFile file name L') :=
    ⟨rfl, rfl, hl, hmax⟩
  refine (fetchKinds_grown hA hn hwide).bind fun members members' hm => (Pairs.pure ?_).any
  refine keepsIds_byLine fun id hid => ?_
  exact ((ha.initial.sublist.append hm.initial.sublist).map _).subset hid

end SeveralQueries

namespace Store

/-- Where no statement ever meets trouble, a lookup of several queries answers every row at least as often with a
larger search limit. -/
theorem keepsIds_of_calm {s : Store} (hcalm : s.disk.Calm) {question : Question} (hasks : ¬ question.AsksOnce) (hl : L ≤ L')
    (hmax : L' ≤ Query.maxLimit) :
    KeepsIds (question.tags.run (s.limited L)).1 (question.tags.run (s.limited L')).1 := by
  have hstart : ∀ A : List String → Prop, AlongsideLimits A s.options L L' (s.limited L) (s.limited L') :=
    fun A => alongside_of_calm (s := s.limited L) hcalm rfl rfl _
  -- The answers kept on the way are filtered by these kinds or not at all.
  have hclear : ∀ kinds : List String, Told (· ∈ [kinds, []]) kinds ∧ Told (· ∈ [kinds, []]) [] := by
    intro kinds
    constructor
    · intro kinds' hm htext
      rcases List.mem_pair.mp hm with rfl | rfl
      · rfl
      · exact (Query.kindsText_eq_empty htext.symm).symm
    · exact fun kinds' _ htext => Query.kindsText_eq_empty htext
  cases question with
  | fileScopedTags file name kinds =>
      exact (fileScopedTags_limits hl hmax (by simp) (hclear kinds).2 (by simp) (hclear kinds).1 file name
        _ _ (hstart _)).2
  | tagsByScopesAndName scopes name isPartial =>
      exact (tagsByScopesAndName_limits hl hmax (by simp) (hclear []).2 scopes name isPartial _ _ (hstart _)).2
  | tagsByScopesAndKind scopes kinds =>
      have hwalk := tagsOfScopes_limits (A := (· ∈ [kinds, []])) (o := s.options) hmax (by simp) (hclear kinds).1
        scopes (fun _ => Nat.le_refl _ : KeepsIds [] []) (by simpa using hl)
      exact (Pairs.ite (Pairs.pure fun _ => Nat.le_refl _).any (pairs_limited AlongsideLimits.options hwalk)
        _ _ (hstart _)).2
  | _ => exact absurd trivial hasks

/-- With a larger search limit a lookup goes on where its answer ended, if it makes one query, and answers every
row at least as often, if no statement of the two runs meets trouble. -/
theorem larger_limit_keeps_rows (s : Store) (question : Question) (hl : L ≤ L') (hmax : L' ≤ Query.maxLimit) :
    (question.AsksOnce → (question.tags.run (s.limited L)).1 <+: (question.tags.run (s.limited L')).1) ∧
    (question.AsksOnce ∨ (∀ k, k = L ∨ k = L' →
        s.disk.CalmUntil (question.tags.run (s.limited k)).2.disk.statements) →
      KeepsIds (question.tags.run (s.limited L)).1 (question.tags.run (s.limited L')).1) := by
  have hone : question.AsksOnce →
      (question.tags.run (s.limited L)).1 <+: (question.tags.run (s.limited L')).1 :=
    fun h => (tags_limits hl hmax h _ _ ⟨s, rfl, rfl⟩).2
  refine ⟨hone, fun h => ?_⟩
  by_cases hasks : question.AsksOnce
  · exact .of_sublist (hone hasks).sublist
  -- Without trouble at other statements, too, both lookups go the same way.
  let calm := s.meeting fun _ => none
  have hcalm : calm.disk.Calm := fun _ => rfl
  have hsame : ∀ k, k = L ∨ k = L' → (question.tags.run (calm.limited k)).1 = (question.tags.run (s.limited k)).1 := by
    intro k hk
    have hrun : question.tags.run (calm.limited k) = _ :=
      question.confined_tags.same (s.limited k) _ (h.resolve_left hasks k hk)
    rw [hrun]
  rw [← hsame L (.inl rfl), ← hsame L' (.inr rfl)]
  exact keepsIds_of_calm hcalm hasks hl hmax

/-- A limit of two comes to the second scope, one of one does not. -/
theorem larger_limit_keeps_rows_two_scopes :
    let tag (name scope : String) : Tag := { name, file := "f.c", kind := "variable", path := name, scope }
    let s := Step.act (Step.act {} (.openPath "tags.db")) (.storeTags [tag "x" "f", tag "y" "g"] 0 true)
    let question := Question.tagsByScopesAndKind ["f", "g"] ["variable"]
    (∀ k, k = 1 ∨ k = 2 → s.disk.CalmUntil (question.tags.run (s.limited k)).2.disk.statements) ∧
      (question.tags.run (s.limited 1)).1.length = 1 ∧ (question.tags.run (s.limited 2)).1.length = 2 ∧
      KeepsIds (question.tags.run (s.limited 1)).1 (question.tags.run (s.limited 2)).1 := by
  intro tag s question
  have hnever : s.disk.Calm := Step.calm (Step.calm (fun _ => rfl) nofun) nofun
  have hcalm : ∀ k, k = 1 ∨ k = 2 → s.disk.CalmUntil (question.tags.run (s.limited k)).2.disk.statements :=
    fun _ _ n _ _ => (hnever n).symm
  refine ⟨hcalm, by decide +kernel, by decide +kernel, ?_⟩
  exact (larger_limit_keeps_rows s question (Nat.le_succ 1) (by decide)).2 (.inr hcalm)

end Store
end TagIndex
