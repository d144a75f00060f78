import TagIndex.Proofs.Answers
import TagIndex.Proofs.Connecting

/-!
# Names of the global scope

Names of the global scope are looked up in its projection. As the projection tells every row of that scope
once and by its own name, a scan of all rows would find the same rows, in the same order.
-/

namespace TagIndex

open Lookup

variable {db : Database} {test : Test} {limit : Nat} {scope name : String} {isPartial : Bool}

/-! ## Tests of names -/

namespace Test

theorem isTooLong_forName (h : (Text.startingWith name).utf8ByteSize ≤ Text.maxPatternBytes)
    (isPartial caseSensitive : Bool) : (forName name isPartial caseSensitive).isTooLong = false := by
  unfold forName
  split
  · rfl
  · split
    · rfl
    · exact decide_eq_false (Nat.not_lt.mpr h)

theorem valueCount_forName_le (name : String) (isPartial caseSensitive : Bool) :
    (forName name isPartial caseSensitive).valueCount ≤ 2 := by
  unfold forName
  split
  · exact Nat.le_succ 1
  · split
    · cases Text.upperEndOf name <;> simp [valueCount]
    · exact Nat.le_succ 1

end Test

/-! ## The projection and the scan -/

namespace Query

/-- The scan of all rows for names in the global scope. -/
def globalScan (test : Test) (limit : Nat) : Query where
  conditions := [.column .scope (.is globalScope), .column .name test]
  limit := limit

/-- The rows of the global scope whose own names meet a test. -/
def globalNamed (db : Database) (test : Test) : List Row :=
  db.tags.filter fun r => r.tag.scope = globalScope ∧ test.holds r.tag.name

/-- A scan for names in one scope goes by id. -/
theorem answers_scan (hs : db.Sound) (scope : String) :
    answers { conditions := [.column .scope (.is scope), .column .name test], limit := limit } db =
      db.tags.filter fun r => r.tag.scope = scope ∧ test.holds r.tag.name := by
  have haccepts : accepts { conditions := [.column .scope (.is scope), .column .name test], limit := limit } db =
      fun r => decide (r.tag.scope = scope ∧ test.holds r.tag.name) := by
    funext r
    simp [accepts, Condition.holds, Test.holds, TextColumn.of]
  have hwalk : walk { conditions := [.column .scope (.is scope), .column .name test], limit := limit } = .byId := by
    simp [walk, tests, Test.isOneOf, Test.isExact, Test.isBeatenBy]
  rw [answers_of_unsorted hs hwalk rfl, haccepts]

theorem run_scan (hs : db.Sound) (ht : test.isTooLong = false) (hl : limit ≤ maxLimit) (scope : String) :
    run { conditions := [.column .scope (.is scope), .column .name test], limit := limit } db =
      .ok ((db.tags.filter fun r => r.tag.scope = scope ∧ test.holds r.tag.name).take limit) := by
  have hshort : ∀ c ∈ [Condition.column .scope (.is scope), .column .name test], c.isTooLong = false := by
    simp only [List.forall_mem_cons]
    exact ⟨rfl, ht, List.forall_mem_nil _⟩
  rw [run_eq hl hshort, answers_scan hs]

theorem run_globalScan (hs : db.Sound) (ht : test.isTooLong = false) (hl : limit ≤ maxLimit) :
    (globalScan test limit).run db = .ok ((globalNamed db test).take limit) := run_scan hs ht hl globalScope

end Query

namespace Database

/-- The projection has the names of the rows of the global scope, and no others. -/
theorem Projected.holds_globalNamed (hp : db.Projected) (hs : db.Sound) {r : Row} (hr : r ∈ db.tags) :
    (Condition.globalNamed test).holds db r =
      decide (r.tag.scope = globalScope ∧ test.holds r.tag.name) := by
  rw [Bool.eq_iff_iff, decide_eq_true_eq]
  simp only [Condition.holds, List.any_eq_true, Bool.and_eq_true, decide_eq_true_eq]
  constructor
  · rintro ⟨g, hg, hid, hname⟩
    obtain ⟨o, ho, hglobal, rfl⟩ := (hp.exact g).mp hg
    obtain rfl := hs.eq_of_id ho hr hid
    exact ⟨of_decide_eq_true hglobal, hname⟩
  · rintro ⟨hglobal, hname⟩
    exact ⟨⟨r.tag.name, r.id⟩, (hp.exact _).mpr ⟨r, hr, decide_eq_true hglobal, rfl⟩, rfl, hname⟩

end Database

namespace Query

/-- The empty scope stands for the global one, whose names the projection has. -/
theorem accepts_byScopeAndName (hp : scope = "" ∨ scope = globalScope → db.Sound ∧ db.Projected) {r : Row}
    (hr : r ∈ db.tags) : (byScopeAndName scope test limit).accepts db r ↔
      r.tag.scope = (if scope = "" then globalScope else scope) ∧ test.holds r.tag.name := by
  rw [byScopeAndName]
  split
  · rename_i hscope
    have hglobal : (if scope = "" then globalScope else scope) = globalScope := by
      rcases hscope with rfl | rfl <;> rfl
    rw [hglobal, accepts, List.all_cons, List.all_nil, Bool.and_true,
      (hp hscope).2.holds_globalNamed (hp hscope).1 hr, decide_eq_true_iff]
  · rename_i hscope
    rw [if_neg fun he => hscope (.inl he)]
    simp [accepts, Condition.holds, Test.holds, TextColumn.of]

theorem run_byScopeAndName_global (hs : db.Sound) (hp : db.Projected) (ht : test.isTooLong = false)
    (hscope : scope = "" ∨ scope = globalScope) (hl : limit ≤ maxLimit) :
    (byScopeAndName scope test limit).run db = .ok ((globalNamed db test).take limit) := by
  have hq : byScopeAndName scope test limit = { conditions := [.globalNamed test], limit := limit } := by
    rw [byScopeAndName, if_pos hscope]
  have hrows : db.tags.filter (accepts { conditions := [.globalNamed test], limit := limit } db) =
      globalNamed db test := by
    refine List.filter_congr fun r hr => ?_
    rw [← hp.holds_globalNamed hs hr, accepts, List.all_cons, List.all_nil, Bool.and_true]
  rw [hq, run_eq hl (by simp [Condition.isTooLong, ht]), answers_of_unsorted hs rfl rfl, hrows]

theorem isTooLarge_byScopeAndName_global (hscope : scope = "" ∨ scope = globalScope)
    (ht : test.valueCount ≤ maxValues) (limit : Nat) :
    (byScopeAndName scope test limit).isTooLarge = false := by
  rw [byScopeAndName, if_pos hscope]
  have hsome : maxConditions ≠ 0 := by decide
  simpa [isTooLarge, Condition.valueCount, hsome] using ht

end Query

/-! ## The lookup -/

namespace Store

open Query

variable {s : Store}

/-- On what the session sees, looking into the projection gives what the scan of all rows gives, also
where either fails. The lookup answers these rows, by id, up to the limit. -/
theorem global_names_as_scanned (h : s.Unscathed) (hf : s.Fresh) (hscope : scope = "" ∨ scope = globalScope)
    (hn : name ≠ "") (hlong : (Text.startingWith name).utf8ByteSize ≤ Text.maxPatternBytes)
    (isPartial : Bool) (hmax : s.options.searchLimit ≤ maxLimit) :
    let test := Test.forName name isPartial s.options.caseSensitive
    let limit := s.options.searchLimit
    s.database.tags.Pairwise (·.id < ·.id) ∧
    (byScopeAndName scope test limit).run s.database = (globalScan test limit).run s.database ∧
    s.Answered (· = (s.database.tags.filter fun r =>
      r.tag.scope = globalScope ∧ test.holds r.tag.name).take limit)
      ((tagsByScopeAndName scope name isPartial).run s).1 := by
  intro test limit
  have hs := h.reachable.sound_database
  have ht : test.isTooLong = false := Test.isTooLong_forName hlong _ _
  have hcount : test.valueCount ≤ maxValues :=
    Nat.le_trans (Test.valueCount_forName_le name isPartial _) (by decide)
  have hfast := run_byScopeAndName_global hs h.projected_database ht hscope hmax
  have hlookup : ((tagsByScopeAndName scope name isPartial).run s).1 =
      ((fetch (byScopeAndName scope test limit)).run s).1 := by
    rw [tagsByScopeAndName, if_neg hn]
    rfl
  refine ⟨hs.ascending, hfast.trans (run_globalScan hs ht hmax).symm, ?_⟩
  rw [hlookup]
  exact hf.isCurrent.fetch_answered (isTooLarge_byScopeAndName_global hscope hcount limit) hfast

/-- A row that moved into the global scope and a new one, found by the start of their names in either case;
of three rows the limit leaves two. -/
theorem global_names_as_scanned_moved :
    let tag (path name scope : String) : Tag := { name, file := "a.c", kind := "function", path, scope }
    let first := [tag "p" "open" "ns", tag "q" "Opera" globalScope, tag "r" "op" globalScope]
    let second := [tag "s" "operate" globalScope, tag "p" "OPEN" globalScope, tag "q" "Opera" globalScope,
      tag "r" "close" globalScope]
    let opened := Step.act (Step.act {} (.setSearchLimit 2)) (.openPath "a.db")
    let s := Step.act (Step.act opened (.storeTags first 0 true)) (.storeTags second 0 true)
    let answer := ((tagsByScopeAndName "" "op" true).run s).1
    s.database.tags.length = 4 ∧
      answer = [⟨1, tag "p" "OPEN" globalScope⟩, ⟨2, tag "q" "Opera" globalScope⟩] := by
  intro tag first second opened s answer
  have h₀ : Unscathed {} := .new ⟨rfl, rfl, rfl⟩ fun _ => .refl _
  have h₁ : Unscathed opened := .next _ (.next (.setSearchLimit 2) h₀ trivial id) trivial id
  have hs : s.Unscathed :=
    .next (.storeTags second 0 true) (.next (.storeTags first 0 true) h₁ trivial id) trivial id
  have htags : s.database.tags = [⟨1, tag "p" "OPEN" globalScope⟩, ⟨2, tag "q" "Opera" globalScope⟩,
      ⟨3, tag "r" "close" globalScope⟩, ⟨4, tag "s" "operate" globalScope⟩] := by decide +kernel
  have hlimit : s.options.searchLimit = 2 := by decide +kernel
  have hcase : s.options.caseSensitive = false := by decide +kernel
  have hr : s.Readable := by decide +kernel
  have hlong : (Text.startingWith "op").utf8ByteSize ≤ Text.maxPatternBytes := by decide +kernel
  obtain ⟨_, _, hanswer⟩ := global_names_as_scanned hs (.empty (by decide +kernel)) (.inl rfl)
    (show "op" ≠ "" by decide) hlong true (by rw [hlimit]; decide)
  refine ⟨by rw [htags]; rfl, (hanswer.of_readable hr).trans ?_⟩
  rw [htags, hlimit, hcase]
  decide +kernel

/-- While another process holds the file no name is told. A name that was told in a transaction is still told after a
commit that meets an error of the disk. -/
theorem global_names_untold :
    let tag : Tag := { name := "open", file := "a.c", kind := "function", path := "open", scope := globalScope }
    let opened := Step.act {} (.openPath "a.db")
    let stored := Step.act opened (.storeTags [tag] 0 true)
    let held := Step.act stored (.outside (stored.disk.lock "a.db"))
    let asked := Step.act (Step.act (Step.act opened .begin) (.storeTags [tag] 0 false))
      (.ask (.tagsByScopeAndName "" "open" false))
    let trouble (n : Nat) := if n = asked.disk.statements then some Fault.diskError else none
    let refused := Step.act (Step.act asked (.outside { asked.disk with trouble })) .commit
    held.Unscathed ∧ held.database.tags = [⟨1, tag⟩] ∧ ((tagsByScopeAndName "" "open" false).run held).1 = [] ∧
      refused.Unscathed ∧ refused.database.tags = [] ∧
      ((tagsByScopeAndName "" "open" false).run refused).1 = [⟨1, tag⟩] := by
  intro tag opened stored held asked trouble refused
  have hopened : opened.Unscathed := .next (.openPath "a.db") (.new ⟨rfl, rfl, rfl⟩ fun _ => .refl _) trivial id
  have hheld : held.Unscathed :=
    .next (.outside (stored.disk.lock "a.db")) (.next (.storeTags [tag] 0 true) hopened trivial id)
      (stored.disk.leaves_lock "a.db") id
  have hstored : ¬ (Step.storeTags [tag] 0 false).FailsPartWay (Step.act opened .begin) := by
    have hok : ((Step.act opened .begin).mutate false (Batch.store [tag] 0)).1.toOption.isSome := by decide +kernel
    rintro ⟨⟨e, he⟩, -⟩
    rw [he] at hok
    cases hok
  have hasked : asked.Unscathed :=
    .next (.ask _) (.next (.storeTags [tag] 0 false) (.next .begin hopened trivial id) trivial hstored) trivial id
  have hrefused : refused.Unscathed :=
    .next .commit (.next (.outside { asked.disk with trouble }) hasked (asked.disk.leaves_trouble trouble) id) trivial id
  exact ⟨hheld, by decide +kernel, by decide +kernel, hrefused, by decide +kernel, by decide +kernel⟩

end Store
end TagIndex
