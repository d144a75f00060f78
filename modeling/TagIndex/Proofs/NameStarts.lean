import TagIndex.Proofs.MergedScopes

/-!
# Starts of names

With the case of letters told apart, a start of names is looked for as a range of texts. The range holds just the
names that start so, and the lookups find the first of their rows: all rows by name, those of one scope by id, and
those of several scopes by scope.
-/

namespace TagIndex

open Lookup Store Query

variable {db : Database} {scopes : List String} {limit : Nat} {p : String}

namespace Query

/-- The rows whose names start with a text. -/
def starting (p : String) (rows : List Row) : List Row := rows.filter fun r => p.toList <+: r.tag.name.toList

/-- Rows in the order of a visit. -/
def inOrderOf (w : Walk) (rows : List Row) : List Row := rows.mergeSort fun a b => (w.compare a b).isLE

theorem holds_range (p name : String) :
    (Test.forName p true true).holds name = decide (p.toList <+: name.toList) := by
  rw [Bool.eq_iff_iff, Test.holds_forName, decide_eq_true_iff]
  rfl

theorem isTooLarge_byName {test : Test} (hcount : test.valueCount ≤ 2) (limit : Nat) :
    (byName test limit).isTooLarge = false := by
  simp [isTooLarge, byName, Condition.valueCount, maxConditions, maxValues]
  omega

theorem run_byName_range (p : String) (hmax : limit ≤ maxLimit) :
    (byName (.forName p true true) limit).run db = .ok ((inOrderOf .byName (starting p db.tags)).take limit) := by
  have haccepts : (byName (.forName p true true) limit).accepts db =
      fun r : Row => decide (p.toList <+: r.tag.name.toList) := by
    funext r
    simp [accepts, byName, Condition.holds, holds_range, TextColumn.of]
  have hanswers : (byName (.forName p true true) limit).answers db = inOrderOf .byName (starting p db.tags) := by
    show (byName (.forName p true true) limit).visited db = _
    rw [visited_eq rfl, haccepts]
    rfl
  have hshort : ∀ c ∈ (byName (.forName p true true) limit).conditions, c.isTooLong = false := by
    intro c hc
    rw [List.mem_singleton.mp hc]
    rfl
  rw [run_eq hmax hshort, hanswers]
  rfl

theorem filter_holds_range (p : String) (keep : Row → Prop) [DecidablePred keep] :
    (db.tags.filter fun r => keep r ∧ (Test.forName p true true).holds r.tag.name) =
      (starting p db.tags).filter fun r => keep r := by
  rw [starting, List.filter_filter]
  refine List.filter_congr fun r _ => ?_
  rw [holds_range, Bool.decide_and, Bool.decide_eq_true]

/-- The named scopes are visited by scope, or by name where there are so many that this is cheaper. -/
def orderOf (scopes : List String) (p : String) : Walk :=
  if (Test.oneOf (namedScopes scopes)).isBeatenBy (.forName p true true) then .byName else .byScope

theorem visited_range (scopes : List String) (p : String) (limit : Nat) :
    (byScopesAndName (namedScopes scopes) (.forName p true true) limit).visited db =
      inOrderOf (orderOf scopes p) ((starting p db.tags).filter fun r => r.tag.scope ∈ namedScopes scopes) := by
  have hwalk : (byScopesAndName (namedScopes scopes) (.forName p true true) limit).walk = orderOf scopes p :=
    walk_byScopesAndName _ _ _
  have haccepts : (byScopesAndName (namedScopes scopes) (.forName p true true) limit).accepts db = fun r =>
      decide (r.tag.scope ∈ namedScopes scopes ∧ (Test.forName p true true).holds r.tag.name) := by
    funext r
    rw [Bool.eq_iff_iff, byScopesAndName_accepts, decide_eq_true_iff]
  rw [visited_eq rfl, hwalk, haccepts, filter_holds_range]
  rfl

end Query

namespace Store

variable {s : Store}

/-! ## One query -/

section Lookups

variable (hf : s.Fresh) (hcase : s.options.caseSensitive) (hmax : s.options.searchLimit ≤ maxLimit) (hp : p ≠ "")

include hf hcase hmax hp

theorem tagsByName_range : s.Answered (· = (inOrderOf .byName (starting p s.database.tags)).take s.options.searchLimit)
    ((tagsByName p true).run s).1 := by
  have hlookup : (tagsByName p true).run s = (fetch (byName (.forName p true true) s.options.searchLimit)).run s := by
    rw [tagsByName, if_neg hp, Lookup.run_named, hcase, Lookup.run_limited]
  rw [hlookup]
  exact hf.isCurrent.fetch_answered (isTooLarge_byName (Test.valueCount_forName_le p true true) _)
    (run_byName_range p hmax)

/-- Names of the global scope are those of its projection. -/
theorem tagsByScopeAndName_range (h : s.Reachable) {scope : String}
    (hscope : scope = "" ∨ scope = globalScope → s.Unscathed) :
    s.Answered (· = ((starting p s.database.tags).filter fun r =>
      r.tag.scope = if scope = "" then globalScope else scope).take s.options.searchLimit)
      ((tagsByScopeAndName scope p true).run s).1 := by
  have hcount := Test.valueCount_forName_le p true true
  have hlookup : (tagsByScopeAndName scope p true).run s =
      (fetch (byScopeAndName scope (.forName p true true) s.options.searchLimit)).run s := by
    rw [tagsByScopeAndName, if_neg hp, Lookup.run_named, hcase, Lookup.run_limited]
  rw [hlookup, ← filter_holds_range]
  by_cases hglobal : scope = "" ∨ scope = globalScope
  · have hsame : (if scope = "" then globalScope else scope) = globalScope := by
      rcases hglobal with rfl | rfl <;> rfl
    rw [hsame]
    exact hf.isCurrent.fetch_answered (isTooLarge_byScopeAndName_global hglobal (Nat.le_trans hcount (by decide)) _)
      (run_byScopeAndName_global h.sound_database (hscope hglobal).projected_database rfl hglobal hmax)
  · rw [if_neg fun he => hglobal (.inl he), byScopeAndName, if_neg hglobal]
    refine hf.isCurrent.fetch_answered ?_ (run_scan h.sound_database rfl hmax scope)
    have hone : (Test.is scope).valueCount = 1 := rfl
    simp [isTooLarge, Condition.valueCount, hone, maxConditions, maxValues]
    omega

end Lookups

/-! ## Several scopes -/

theorem joinedNames_range (hs : db.Sound) (hp : globalScope ∈ scopes → db.Projected) (hl : 1 ≤ limit)
    (hmax : limit ≤ maxLimit)
    (hvalues : (namedScopes scopes).length + (Test.forName p true true).valueCount ≤ maxValues) :
    let rows := starting p db.tags
    let global := if globalScope ∈ scopes then (rows.filter (·.tag.scope = globalScope)).take limit else []
    let left := remaining limit global.length
    let nested := (inOrderOf (orderOf scopes p) (rows.filter fun r => r.tag.scope ∈ namedScopes scopes)).take left
    joinedNames scopes (.forName p true true) limit db =
      (scopes.eraseDups.flatMap (rowsOf global nested)).take limit := by
  intro rows global left nested
  have hcount := Test.valueCount_forName_le p true true
  have hglobal : globalFound scopes (.forName p true true) limit db = global := by
    rw [globalFound_listed hs hp rfl hcount hmax, namedIn, filter_holds_range]
  have hnested : nestedFound scopes (.forName p true true) limit db = nested :=
    (nestedFound_visited rfl hmax hvalues).trans (by rw [hglobal, visited_range])
  rw [joinedNames_eq hl, hglobal, hnested]

end Store
end TagIndex
