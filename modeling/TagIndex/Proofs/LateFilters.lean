import TagIndex.Proofs.Answers

/-!
# Filters after the limit

Three lookups take the first rows of a path, a name or a scope, as many as the limit allows, and look at
the kinds or the parent of these rows only. A row that passes can lie behind the limit while the rows
before it do not pass; then the answer is short of it.
-/

namespace TagIndex

/-! ## Cut, then filtered -/

variable {limit : Nat} {found rows : List Row} {p : Row → Bool}

/-- All rows before the cut pass, or none behind it does. -/
def Harmless (limit : Nat) (found : List Row) (p : Row → Bool) : Prop :=
  (∀ r ∈ found.take limit, p r) ∨ ∀ r ∈ found.drop limit, ¬ p r

/-- The rows that are found, cut at the limit and then filtered. They are never more than the limit and
the rows that pass allow, and as many exactly if the cut is harmless. -/
structure LateFilter (limit : Nat) (found : List Row) (p : Row → Bool) (rows : List Row) : Prop where
  eq : rows = (found.take limit).filter p
  le : rows.length ≤ min limit (found.filter p).length
  full : rows.length = min limit (found.filter p).length ↔ Harmless limit found p

theorem lateFilter (limit : Nat) (found : List Row) (p : Row → Bool) :
    LateFilter limit found p ((found.take limit).filter p) := by
  -- Each row that passes stands before the cut or behind it.
  have hsplit : ((found.take limit).filter p).length + ((found.drop limit).filter p).length =
      (found.filter p).length := by
    rw [← List.length_append, ← List.filter_append, List.take_append_drop]
  have hall : ((found.take limit).filter p).length = (found.take limit).length ↔
      ∀ r ∈ found.take limit, p r := List.length_filter_eq_length_iff
  have hnone : ((found.drop limit).filter p).length = 0 ↔ ∀ r ∈ found.drop limit, ¬ p r := by
    rw [List.length_eq_zero_iff, List.filter_eq_nil_iff]
  have htake := List.length_take (i := limit) (l := found)
  have hdrop := List.length_drop (i := limit) (l := found)
  have hle := List.length_filter_le p (found.take limit)
  have hle' := List.length_filter_le p (found.drop limit)
  refine ⟨rfl, by omega, ?_⟩
  rw [Harmless, ← hall, ← hnone]
  omega

/-- The same rows filtered first and then cut only go on where these end. -/
theorem LateFilter.isPrefix (h : LateFilter limit found p rows) :
    rows <+: (found.filter p).take limit := by
  rw [List.prefix_take_iff]
  refine ⟨?_, Nat.le_trans h.le (Nat.min_le_left _ _)⟩
  rw [h.eq, ← List.take_append_drop limit found, List.filter_append, List.take_append_drop]
  exact List.prefix_append _ _

theorem LateFilter.eq_iff (h : LateFilter limit found p rows) :
    rows = (found.filter p).take limit ↔ Harmless limit found p := by
  rw [← h.full, ← List.length_take]
  exact ⟨congrArg List.length, h.isPrefix.eq_of_length⟩

/-! ## The lookups -/

namespace Store

open Lookup Query

variable {s : Store} {q : Query} {kinds : List String} {name parent scope path : String}

section Lookups

variable {limit : Nat} (h : s.PlainlyAsked) (hlimit : s.options.searchLimit = limit)
  (hmax : limit ≤ maxLimit)

include h hlimit hmax

theorem tagsByKindAndPath_answered (hk : kinds ≠ []) (hp : PlainKinds kinds) (path : String) :
    s.Answered (LateFilter limit (s.database.tags.filter (·.tag.path = path))
      fun r => kinds.contains r.tag.kind) ((tagsByKindAndPath kinds path).run s).1 := by
  have hrun : ((tagsByKindAndPath kinds path).run s).1 =
      ((fetchKinds (byPath path limit) kinds).run s).1 := by
    rw [tagsByKindAndPath, if_neg (by simpa using hk), run_limited, hlimit]
  have hanswer := run_of_text h.reachable.sound_database .path path hmax
  rw [hrun]
  refine (h.fetchKinds_answered (isTooLarge_of_text .path path none limit) hp hanswer).imp ?_
  intro he
  rw [he, keepKinds_eq_filter hk]
  exact lateFilter _ _ _

theorem tagsByNameAndParent_answered (hn : name ≠ "") (parent : String) :
    s.Answered (LateFilter limit (s.database.tags.filter (·.tag.name = name))
      fun r => r.tag.parent = parent) ((tagsByNameAndParent name parent).run s).1 := by
  have hrun : ((tagsByNameAndParent name parent).run s).1 =
      ((fetch (byName (.is name) limit)).run s).1.filter (·.tag.parent = parent) := by
    rw [tagsByNameAndParent, if_neg hn, run_limited, hlimit, run_bind]
    rfl
  have hanswer := run_of_text h.reachable.sound_database .name name hmax
  have hfetch : s.Answered (· = (s.database.tags.filter (·.tag.name = name)).take limit)
      ((fetch (byName (.is name) limit)).run s).1 :=
    h.isCurrentBy.fetch_answered (isTooLarge_of_text .name name none limit) hanswer
  rw [hrun]
  rcases hfetch with he | ⟨hr, he⟩
  · left
    rw [he]
    exact lateFilter _ _ _
  · right
    rw [he]
    exact ⟨hr, rfl⟩

theorem tagsByScopesAndKind_answered (hl : 1 ≤ limit) (hk : kinds ≠ []) (hp : PlainKinds kinds)
    (scope : String) : s.Answered (LateFilter limit
      ((s.database.tags.filter (·.tag.scope = scope)).mergeSort (Sorting.ascending .name).le)
      fun r => kinds.contains r.tag.kind) ((tagsByScopesAndKind [scope] kinds).run s).1 := by
  have hrun : ((tagsByScopesAndKind [scope] kinds).run s).1 =
      ((fetchKinds (byScope scope limit) kinds).run s).1 := by
    have hremaining : remaining limit ([] : List Row).length = limit := Nat.max_eq_left hl
    have hempty : kinds.isEmpty = false := by simpa using hk
    rw [tagsByScopesAndKind, if_neg (by simp [hempty]), run_limited, hlimit, tagsOfScopes, run_bind,
      hremaining]
    dsimp only [List.nil_append]
    split <;> rfl
  have hanswer := run_byScope h.reachable.sound_database scope hmax
  rw [hrun]
  refine (h.fetchKinds_answered (isTooLarge_of_text .scope scope _ limit) hp hanswer).imp ?_
  intro he
  rw [he, keepKinds_eq_filter hk]
  exact lateFilter _ _ _

theorem tagsByPathAndKind_answered (hk : kinds ≠ []) (hpath : path ≠ "") (hmany : kinds.length < maxValues) :
    s.Answered (· = ((s.database.tags.filter (·.tag.path = path)).filter
      fun r => kinds.contains r.tag.kind).take limit) ((tagsByPathAndKind path kinds limit).run s).1 := by
  have hrun : ((tagsByPathAndKind path kinds limit).run s).1 =
      ((fetch (byPathAndKind path kinds limit)).run s).1 := by
    rw [tagsByPathAndKind, if_neg hpath, run_limited, hlimit, Nat.min_self]
  rw [hrun]
  exact h.isCurrentBy.fetch_answered (isTooLarge_byPathAndKind path hmany limit)
    (run_byPathAndKind h.reachable.sound_database path hk hmax)

/-- Each of the lookups looks at kinds or at the parent of the rows that the limit has left. The lookup by
kind and path so answers the first rows of the one that filters by the kinds before the limit, and all of
them exactly if the limit cuts off none that pass or only rows that pass come before it. -/
theorem filters_after_limit (hl : 1 ≤ limit) (hk : kinds ≠ []) (hp : PlainKinds kinds) (hn : name ≠ "")
    (parent scope path : String) :
    let ofKinds : Row → Bool := fun r => kinds.contains r.tag.kind
    let atPath := s.database.tags.filter (·.tag.path = path)
    let named := s.database.tags.filter (·.tag.name = name)
    let inScope := (s.database.tags.filter (·.tag.scope = scope)).mergeSort (Sorting.ascending .name).le
    let byKindAndPath := ((tagsByKindAndPath kinds path).run s).1
    let byPathAndKind := ((tagsByPathAndKind path kinds limit).run s).1
    s.Answered (LateFilter limit atPath ofKinds) byKindAndPath ∧
    s.Answered (LateFilter limit named fun r => r.tag.parent = parent)
      ((tagsByNameAndParent name parent).run s).1 ∧
    s.Answered (LateFilter limit inScope ofKinds) ((tagsByScopesAndKind [scope] kinds).run s).1 ∧
    (s.Readable → path ≠ "" → kinds.length < maxValues →
      byKindAndPath <+: byPathAndKind ∧
      (byKindAndPath = byPathAndKind ↔ Harmless limit atPath ofKinds)) := by
  intro ofKinds atPath named inScope byKindAndPath byPathAndKind
  have hlate := tagsByKindAndPath_answered h hlimit hmax hk hp path
  refine ⟨hlate, tagsByNameAndParent_answered h hlimit hmax hn parent,
    tagsByScopesAndKind_answered h hlimit hmax hl hk hp scope, fun hr hpath hmany => ?_⟩
  have hearly := (tagsByPathAndKind_answered h hlimit hmax hk hpath hmany).of_readable hr
  rw [show byPathAndKind = (atPath.filter ofKinds).take limit from hearly]
  exact ⟨(hlate.of_readable hr).isPrefix, (hlate.of_readable hr).eq_iff⟩

end Lookups

/-- With a limit of two rows, the lookup by kind and path finds one of two. -/
theorem filters_after_limit_two :
    let tag (name kind : String) : Tag := { name, file := "f.c", kind, path := "p" }
    let s := Step.act (Step.act (Step.act {} (.setSearchLimit 2)) (.openPath "tags.db"))
      (.storeTags [tag "x" "a", tag "y" "b", tag "z" "c"] 0 true)
    let byKindAndPath := ((tagsByKindAndPath ["b", "c"] "p").run s).1
    let byPathAndKind := ((tagsByPathAndKind "p" ["b", "c"] 2).run s).1
    byKindAndPath = [⟨2, tag "y" "b"⟩] ∧ byKindAndPath <+: byPathAndKind ∧
      byKindAndPath ≠ byPathAndKind := by
  intro tag s byKindAndPath byPathAndKind
  have hs : s.PlainlyAsked :=
    .of_empty (.next _ (.next _ (.next _ (.new ⟨rfl, rfl, rfl⟩ fun _ => .refl _) trivial trivial) trivial trivial)
      trivial trivial) (by decide +kernel)
  have htags : s.database.tags = [⟨1, tag "x" "a"⟩, ⟨2, tag "y" "b"⟩, ⟨3, tag "z" "c"⟩] := by
    decide +kernel
  have hlimit : s.options.searchLimit = 2 := by decide +kernel
  have hr : s.Readable := by decide +kernel
  have hplain : PlainKinds ["b", "c"] := by unfold PlainKinds; decide +kernel
  obtain ⟨hkind, _, _, hpath⟩ := filters_after_limit hs hlimit (by decide) (by decide) (by decide)
    hplain (show "x" ≠ "" by decide) "" "" "p"
  rw [htags] at hkind hpath
  obtain ⟨hstart, hsame⟩ := hpath hr (by decide) (by decide)
  refine ⟨(hkind.of_readable hr).eq.trans (by decide +kernel), hstart, ?_⟩
  rw [Ne, hsame]
  unfold Harmless
  decide +kernel

/-- A row behind the limit is not found by its kind or by its parent. -/
theorem row_behind_limit_not_found :
    let tag (kind parent : String) : Tag :=
      { name := "x", file := "f.c", kind, parent, path := "p", scope := "p" }
    let s := Step.act (Step.act (Step.act {} (.setSearchLimit 1)) (.openPath "tags.db"))
      (.storeTags [tag "a" "q", tag "b" "r"] 0 true)
    s.Reachable ∧ s.options.searchLimit = 1 ∧ ⟨2, tag "b" "r"⟩ ∈ s.database.tags ∧
    ((tagsByKindAndPath ["b"] "p").run s).1 = [] ∧
    ((tagsByNameAndParent "x" "r").run s).1 = [] ∧
    ((tagsByScopesAndKind ["p"] ["b"]).run s).1 = [] ∧
    ((tagsByPathAndKind "p" ["b"] 1).run s).1 = [⟨2, tag "b" "r"⟩] := by
  intro tag s
  have hs : s.PlainlyAsked :=
    .of_empty (.next _ (.next _ (.next _ (.new ⟨rfl, rfl, rfl⟩ fun _ => .refl _) trivial trivial) trivial trivial)
      trivial trivial) (by decide +kernel)
  have htags : s.database.tags = [⟨1, tag "a" "q"⟩, ⟨2, tag "b" "r"⟩] := by decide +kernel
  have hr : s.Readable := by decide +kernel
  have hlimit : s.options.searchLimit = 1 := by decide +kernel
  have hplain : PlainKinds ["b"] := by unfold PlainKinds; decide +kernel
  have hone : 1 ≤ maxLimit := by decide
  have hkinds : ["b"] ≠ [] := by decide
  have hkind := (tagsByKindAndPath_answered hs hlimit hone hkinds hplain "p").of_readable hr
  have hparent :=
    (tagsByNameAndParent_answered hs hlimit hone (show "x" ≠ "" by decide) "r").of_readable hr
  have hscope := (tagsByScopesAndKind_answered hs hlimit hone (by decide) hkinds hplain "p").of_readable hr
  have hearly := (tagsByPathAndKind_answered hs hlimit hone hkinds (show "p" ≠ "" by decide)
    (by decide)).of_readable hr
  have hsorted : s.database.tags.filter (·.tag.scope = "p") |>.Pairwise
      fun a b => (Sorting.ascending .name).le a b := by
    rw [htags]
    decide +kernel
  rw [List.mergeSort_of_pairwise hsorted] at hscope
  rw [htags] at hkind hparent hscope hearly ⊢
  exact ⟨hs.reachable, hlimit, by decide, hkind.eq.trans (by decide +kernel),
    hparent.eq.trans (by decide +kernel), hscope.eq.trans (by decide +kernel),
    hearly.trans (by decide +kernel)⟩

end Store
end TagIndex
