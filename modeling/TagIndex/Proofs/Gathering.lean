import TagIndex.Proofs.Serving

/-!
# Kinds in several scopes

Each scope is asked for what the scopes before it have left of the limit, and kinds are looked at after that.
Rows are gathered scope by scope until the limit is reached.
-/

namespace TagIndex.Store

open Lookup Query

variable {A : List String → Prop} {o : Options} {db : Database} {kinds scopes : List String} {limit : Nat}
  {r : Row}

theorem found_byScope (hs : db.Sound) (hmax : limit ≤ maxLimit) (scope : String) (hne : kinds ≠ []) :
    found (byScope scope limit) kinds db =
      (((db.tags.filter (·.tag.scope = scope)).mergeSort (Sorting.ascending .name).le).take limit).filter
        fun r => kinds.contains r.tag.kind := by
  have hsmall : (byScope scope limit).isTooLarge = false := isTooLarge_of_text .scope scope _ limit
  rw [found_of_run hsmall (run_byScope hs scope hmax), keepKinds_eq_filter hne]

/-- Rows that stand in the table by name need no sorting. -/
theorem found_byScope_sorted (hs : db.Sound) (hmax : limit ≤ maxLimit) (scope : String) (hne : kinds ≠ [])
    (hsorted : (db.tags.filter (·.tag.scope = scope)).Pairwise fun a b => (Sorting.ascending .name).le a b) :
    found (byScope scope limit) kinds db =
      ((db.tags.filter (·.tag.scope = scope)).take limit).filter fun r => kinds.contains r.tag.kind := by
  rw [found_byScope hs hmax scope hne, List.mergeSort_of_pairwise hsorted]

/-- The rows that are gathered scope by scope, each asked for what is left of the limit. -/
def gathered (limit : Nat) (kinds : List String) (db : Database) : List String → List Row → List Row
  | [], tags => tags
  | scope :: scopes, tags =>
    let tags := tags ++ found (byScope scope (remaining limit tags.length)) kinds db
    if limit ≤ tags.length then tags else gathered limit kinds db scopes tags

theorem serves_tagsOfScopes (hk : A kinds) (ht : Told A kinds) (limit : Nat) (scopes : List String)
    (tags : List Row) : Meets (Serves A o db) (tagsOfScopes limit kinds scopes tags)
      (· = gathered limit kinds db scopes tags) := by
  induction scopes generalizing tags with
  | nil => exact .pure rfl
  | cons scope scopes ih =>
      refine (serves_fetchKinds hk ht _).bind fun rows hrows => ?_
      rw [hrows, gathered]
      dsimp only
      split
      · exact .pure rfl
      · exact ih _

theorem serves_tagsByScopesAndKind (hk : A kinds) (ht : Told A kinds) (hne : kinds ≠ [])
    (scopes : List String) : Meets (Serves A o db) (tagsByScopesAndKind scopes kinds)
      (· = gathered o.searchLimit kinds db scopes []) := by
  have hkinds : kinds.isEmpty = false := by simpa using hne
  cases scopes with
  | nil =>
      rw [tagsByScopesAndKind, if_pos (.inr rfl)]
      exact .pure rfl
  | cons scope scopes =>
      rw [tagsByScopesAndKind, if_neg (by simp [hkinds])]
      refine serves_searchLimit.bind fun limit hlimit => ?_
      rw [hlimit]
      exact serves_tagsOfScopes hk ht _ _ _

theorem prefix_gathered (scopes : List String) (tags : List Row) :
    tags <+: gathered limit kinds db scopes tags := by
  induction scopes generalizing tags with
  | nil => exact List.prefix_rfl
  | cons scope scopes ih =>
      rw [gathered]
      split
      · exact List.prefix_append _ _
      · exact (List.prefix_append _ _).trans (ih _)

theorem mem_gathered {tags : List Row} (h : r ∈ gathered limit kinds db scopes tags) :
    r ∈ tags ∨ r.tag.scope ∈ scopes := by
  induction scopes generalizing tags with
  | nil => exact .inl h
  | cons scope scopes ih =>
      have hhere : r ∈ tags ++ found (byScope scope (remaining limit tags.length)) kinds db →
          r ∈ tags ∨ r.tag.scope ∈ scope :: scopes := by
        intro hr
        refine (List.mem_append.mp hr).imp_right fun hr => List.mem_cons.mpr (.inl ?_)
        simpa [accepts, byScope, Condition.holds, Test.holds, TextColumn.of] using (mem_found hr).2
      rw [gathered] at h
      split at h
      · exact hhere h
      · exact (ih h).elim hhere fun hr => .inr (List.mem_cons_of_mem _ hr)

/-- Gathering goes on behind some scopes unless these have reached the limit. -/
theorem gathered_append {tags : List Row} (front back : List String) (h : tags.length < limit) :
    gathered limit kinds db (front ++ back) tags =
      if limit ≤ (gathered limit kinds db front tags).length then gathered limit kinds db front tags
      else gathered limit kinds db back (gathered limit kinds db front tags) := by
  induction front generalizing tags with
  | nil => rw [List.nil_append, gathered, if_neg (Nat.not_le.mpr h)]
  | cons scope front ih =>
      rw [List.cons_append, gathered, gathered]
      split
      · rfl
      · exact ih (Nat.lt_of_not_le ‹_›)

theorem le_maxLimit_of_mem_gathered (hr : r ∈ gathered limit kinds db scopes []) : limit ≤ maxLimit := by
  by_contra hlarge
  have hlarge : maxLimit < limit := Nat.lt_of_not_le hlarge
  have hnone : ∀ scopes, gathered limit kinds db scopes [] = [] := by
    intro scopes
    induction scopes with
    | nil => rfl
    | cons scope scopes ih =>
        have hfound : found (byScope scope (remaining limit 0)) kinds db = [] :=
          found_of_limit (Nat.lt_of_lt_of_le hlarge (Nat.le_max_left _ _))
        have hl : ¬ limit ≤ 0 := by omega
        simpa [gathered, hfound, hl] using ih
  rw [hnone] at hr
  cases hr

/-- Where a row of a later scope is gathered, so are the rows that were found in an earlier one. -/
theorem gathered_of_later {earlier between back : List String} {scope : String} {row : Row}
    (hr : r ∈ gathered limit kinds db (earlier ++ scope :: between ++ back) [])
    (hlater : r.tag.scope ∉ earlier ++ scope :: between) (hl : 1 ≤ limit)
    (hrow : row ∈ found (byScope scope (remaining limit (gathered limit kinds db earlier []).length)) kinds db) :
    row ∈ gathered limit kinds db (earlier ++ scope :: between ++ back) [] := by
  -- Scopes that reach the limit end the gathering, so those before the later one have not.
  rw [gathered_append _ _ hl] at hr ⊢
  split at hr
  · exact absurd ((mem_gathered hr).resolve_left List.not_mem_nil) hlater
  · rename_i hopen
    rw [if_neg hopen]
    refine (prefix_gathered _ _).subset ?_
    rw [gathered_append _ _ hl] at hopen ⊢
    split at hopen
    · exact absurd ‹_› hopen
    · rw [if_neg ‹_›, gathered]
      have hhere := List.mem_append_right (gathered limit kinds db earlier []) hrow
      split
      · exact hhere
      · exact (prefix_gathered _ _).subset hhere

end TagIndex.Store
