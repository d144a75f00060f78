import TagIndex.Proofs.NameStarts
import TagIndex.Proofs.SelectingOptions

/-!
# A parent beside a name

Beside a parent a name is looked for as a whole one, whatever mode is given with it. So where the limit cuts nothing,
a query for both prints all that the mode finds of the parent only if the mode finds no other name there.
-/

namespace TagIndex

open Lookup Store Query

variable {db : Database} {name parent : String} {exact contains : Bool} {test : Test} {limit : Nat}

/-! ## What a mode finds -/

namespace TagQuery

/-- How a query by name without a parent looks at names. -/
def modeTest (name : String) (exact contains caseSensitive : Bool) : Test :=
  if contains then .like (Text.containing name) else .forName name (!exact) caseSensitive

/-- A name is found by itself in every mode. -/
theorem modeTest_holds_self (name : String) (exact contains caseSensitive : Bool) :
    (modeTest name exact contains caseSensitive).holds name := by
  have hbegins : Text.Begins name name := Text.begins_of_starts List.prefix_rfl
  unfold modeTest
  split
  · exact Text.matchesPattern_containing.mpr hbegins.occurs
  · refine Test.holds_forName.mpr ?_
    unfold Test.Matches
    split
    · rfl
    split
    · exact List.prefix_rfl
    · exact hbegins

theorem valueCount_modeTest_le (name : String) (exact contains caseSensitive : Bool) :
    (modeTest name exact contains caseSensitive).valueCount ≤ 2 := by
  unfold modeTest
  split
  · exact Nat.le_succ 1
  · exact Test.valueCount_forName_le _ _ _

end TagQuery

namespace Query

theorem accepts_byName (test : Test) (limit : Nat) (db : Database) :
    (byName test limit).accepts db = fun r => test.holds r.tag.name := by
  funext r
  simp [accepts, byName, Condition.holds, TextColumn.of]

theorem walk_byName (test : Test) (limit : Nat) :
    (byName test limit).walk = if test.isRange then .byName else .byId := by
  cases test <;> simp [walk, tests, byName, Test.isRange]

/-- Rows of one name stand by id, in whatever order names are visited. -/
theorem pairwise_named (test : Test) (limit : Nat) (db : Database) (name : String) :
    (((byName test limit).visited db).filter (·.tag.name = name)).Pairwise
      fun a b => (Walk.byId.compare a b).isLE := by
  have hsorted : (((byName test limit).visited db).filter (·.tag.name = name)).Pairwise
      fun a b => ((byName test limit).walk.compare a b).isLE := (pairwise_visited rfl).filter _
  refine List.Pairwise.imp_of_mem (fun {a b} ha hb hab => ?_) hsorted
  have hname : a.tag.name = b.tag.name :=
    (of_decide_eq_true (List.mem_filter.mp ha).2).trans (of_decide_eq_true (List.mem_filter.mp hb).2).symm
  rw [walk_byName] at hab
  split at hab
  · simpa [Walk.compare, hname] using hab
  · exact hab

end Query

namespace Store

/-- Where the limit cuts nothing, the rows of a whole name are among those that a test finds which it meets, and in
the same order. -/
theorem found_named (hs : db.Sound) (hself : test.holds name) (hshort : test.isTooLong = false)
    (hcount : test.valueCount ≤ 2) (hmax : limit ≤ maxLimit)
    (hfit : (db.tags.countP fun r => test.holds r.tag.name) ≤ limit) :
    found (byName (.is name) limit) [] db = (found (byName test limit) [] db).filter (·.tag.name = name) := by
  let named := db.tags.filter (·.tag.name = name)
  have hwhole : found (byName (.is name) limit) [] db = named := by
    have hfew : named.length ≤ db.tags.countP fun r => test.holds r.tag.name := by
      rw [← List.countP_eq_length_filter]
      refine List.countP_mono_left fun r _ hr => ?_
      rwa [of_decide_eq_true hr]
    have hsmall : (byName (.is name) limit).isTooLarge = false := isTooLarge_of_text .name name none limit
    have hrun : (byName (.is name) limit).run db = .ok (named.take limit) := run_of_text hs .name name hmax
    rw [found_of_run hsmall hrun]
    exact List.take_of_length_le (Nat.le_trans hfew hfit)
  have hfound : found (byName test limit) [] db = (byName test limit).visited db := by
    have hconditions : ∀ c ∈ (byName test limit).conditions, c.isTooLong = false := List.forall_mem_singleton.mpr hshort
    have hlength : ((byName test limit).answers db).length ≤ limit := by
      rwa [length_answers, accepts_byName]
    rw [found_of_run (isTooLarge_byName hcount limit) (run_eq hmax hconditions)]
    exact List.take_of_length_le hlength
  have hperm : named.Perm (((byName test limit).visited db).filter (·.tag.name = name)) := by
    refine .trans (.of_eq ?_) ((visited_perm _ db).filter _).symm
    rw [List.filter_filter, accepts_byName]
    refine List.filter_congr fun r _ => ?_
    rw [Bool.eq_iff_iff, Bool.and_eq_true, decide_eq_true_iff]
    refine ⟨fun hname => ⟨hname, ?_⟩, And.left⟩
    show test.holds r.tag.name
    rwa [hname]
  rw [hwhole, hfound]
  refine perm_eq hs .byId (fun r hr => List.mem_of_mem_filter (hperm.mem_iff.mpr hr)) hperm ?_ (pairwise_named _ _ _ _)
  exact (hs.ascending.filter _).imp fun hab => Nat.isLE_compare.mpr (Nat.le_of_lt hab)

end Store

/-! ## Lookups -/

namespace TagQuery

variable {s : Store}

theorem run_name (s : Store) (name : String) (exact contains : Bool) :
    ((TagQuery.name name exact contains none).rows.run s).1 = if name = "" then [] else
      ((fetch (byName (modeTest name exact contains s.options.caseSensitive) s.options.searchLimit)).run s).1 := by
  cases contains with
  | true =>
      show ((tagsByPartName name).run s).1 = _
      rw [tagsByPartName]
      split
      · rfl
      · rw [run_limited]
        rfl
  | false =>
      show ((tagsByName name (!exact)).run s).1 = _
      rw [tagsByName]
      split
      · rfl
      · rw [run_named, run_limited]
        rfl

/-- Beside a parent the mode is not heeded. -/
theorem run_name_of_parent (s : Store) (name parent : String) (exact contains : Bool) :
    ((TagQuery.name name exact contains (some parent)).rows.run s).1 =
      ((TagQuery.name name true false none).rows.run s).1.filter (·.tag.parent = parent) := by
  rw [run_name]
  show ((tagsByNameAndParent name parent).run s).1 = _
  rw [tagsByNameAndParent]
  split
  · rfl
  · rw [run_limited, run_bind]
    rfl

/-- A session that keeps nothing finds by the whole name what it finds in any mode under just this name. -/
theorem run_name_exact (he : s.cache.entries = []) (hs : s.database.Sound)
    (hshort : (modeTest name exact contains s.options.caseSensitive).isTooLong = false)
    (hmax : s.options.searchLimit ≤ maxLimit)
    (hfit : (s.database.tags.countP fun r => (modeTest name exact contains s.options.caseSensitive).holds r.tag.name) ≤
      s.options.searchLimit) :
    ((TagQuery.name name true false none).rows.run s).1 =
      ((TagQuery.name name exact contains none).rows.run s).1.filter (·.tag.name = name) := by
  rw [run_name, run_name]
  split
  · rfl
  rw [fetch, fetch, fetchKinds_of_empty he, fetchKinds_of_empty he]
  split
  · exact found_named hs (modeTest_holds_self ..) hshort (valueCount_modeTest_le ..) hmax hfit
  · rfl

end TagQuery

/-! ## From the command line -/

namespace Invocation

variable {i : Invocation} {env : Environment} {user : Option String} {d d' : Disk} {s : Store}

theorem openStore_cache (h : i.openStore env user d = (.ok s, d')) : s.cache.entries = [] := by
  obtain ⟨options, path, hopen⟩ := openStore_openPath h
  exact IsCurrentBy.connect rfl (openPath_ok_of_new rfl hopen)

theorem openStore_sound (h : i.openStore env user d = (.ok s, d')) (hd : ∀ p, (d.tables p).Sound) :
    s.database.Sound := by
  rcases (openStore_browses h []).shows_database with hblank | ⟨p, hp⟩
  · exact Batch.sound_of_no_tags hblank.tags
  · exact Batch.aboutTags_sound.sameTables hp (hd p)

/-- Beside a parent, a query by name prints in every mode what it prints with `--exact` of the tags of this parent.
Where the limit cuts nothing of what the mode finds, these are the tags that the mode prints of the parent but for
those of another name, in the same order, and so all of them just if there is no other name. -/
theorem parent_narrows_exact_name (i : Invocation) (env : Environment) (user : Option String) (now : Int) (d : Disk)
    (hd : ∀ p, (d.tables p).Sound) (name parent : String) (exact contains : Bool) :
    let line (parent : Option String) : Invocation := { i with command := .tags (.name name exact contains parent) }
    let report (parent : Option String) : Report := ((line parent).run env user now d).1
    (∀ f d', i.openStore env user d = (.error f, d') → report none = .failed f ∧ report (some parent) = .failed f) ∧
    ∀ s d', i.openStore env user d = (.ok s, d') →
      let rows (exact contains : Bool) : List Row := ((TagQuery.name name exact contains none).rows.run s).1
      let narrowed := (rows true false).filter (·.tag.parent = parent)
      let ofParent := (rows exact contains).filter (·.tag.parent = parent)
      let test := TagQuery.modeTest name exact contains s.options.caseSensitive
      let limit := s.options.searchLimit
      report none = .printed (Output.tags i.format (rows exact contains)) ∧
      report (some parent) = .printed (Output.tags i.format narrowed) ∧
      (test.isTooLong = false → limit ≤ maxLimit → (s.database.tags.countP fun r => test.holds r.tag.name) ≤ limit →
        narrowed = ofParent.filter (·.tag.name = name) ∧
        (narrowed = ofParent ↔ ∀ r ∈ ofParent, r.tag.name = name)) := by
  intro line report
  refine ⟨fun f d' ho => ⟨?_, ?_⟩, fun s d' ho => ?_⟩
  · exact run_tags_failed (i := line none) rfl ho now
  · exact run_tags_failed (i := line (some parent)) rfl ho now
  intro rows narrowed ofParent test limit
  have hprinted : report (some parent) = .printed (Output.tags i.format narrowed) := by
    have hrows : _ = narrowed := TagQuery.run_name_of_parent s name parent exact contains
    rw [← hrows]
    exact run_tags (i := line (some parent)) rfl ho now
  refine ⟨run_tags (i := line none) rfl ho now, hprinted, fun hshort hmax hfit => ?_⟩
  have hexact : rows true false = (rows exact contains).filter (·.tag.name = name) :=
    TagQuery.run_name_exact (openStore_cache ho) (openStore_sound ho hd) hshort hmax hfit
  have hnarrowed : narrowed = ofParent.filter (·.tag.name = name) := by
    rw [show narrowed = (rows true false).filter (·.tag.parent = parent) from rfl, hexact, List.filter_filter,
      List.filter_filter]
    exact List.filter_congr fun r _ => Bool.and_comm _ _
  refine ⟨hnarrowed, ?_⟩
  rw [hnarrowed, List.filter_eq_self]
  simp only [decide_eq_true_eq]

/-- A tag that is found by the start of its name or by a part of it is not printed beside its parent; found by the
whole name it is. -/
theorem parent_narrows_exact_name_started :
    let tag (name parent : String) : Tag :=
      { name, file := "a.c", kind := "function", parent, path := parent ++ "::" ++ name, scope := parent }
    let d := (Step.act (Step.act {} (.openPath "tags.db")) (.storeTags [tag "foo" "ns", tag "bar" "lib"] 0 true)).disk
    let line (name : String) (contains : Bool) (parent : Option String) : Invocation :=
      { command := .tags (.name name false contains parent), database := some "tags.db" }
    let report (name : String) (contains : Bool) (parent : Option String) : Report :=
      ((line name contains parent).run {} none 0 d).1
    let nothing := Report.printed (Output.tags .auto [])
    let foo := Report.printed (Output.tags .auto [⟨1, tag "foo" "ns"⟩])
    Command.ofLine ["--db", "tags.db", "query", "name", "fo", "--parent", "ns"] = .ok (line "fo" false (some "ns")) ∧
    Command.ofLine ["--db", "tags.db", "query", "name", "oo", "--contains", "--parent", "ns"] =
      .ok (line "oo" true (some "ns")) ∧
    (report "fo" false none = foo ∧ report "fo" false (some "ns") = nothing) ∧
    (report "oo" true none = foo ∧ report "oo" true (some "ns") = nothing) ∧
    (report "foo" true none = foo ∧ report "foo" true (some "ns") = foo) := by
  intro tag d line report nothing foo
  have hd : ∀ p, (d.tables p).Sound := (reachable_stored _ _).sound_tables
  let i : Invocation := line "" false none
  let s : Store := (i.openStore {} none d).1.toOption.getD default
  have ho : i.openStore {} none d = (.ok s, _) := openStore_of_isOk (by decide +kernel)
  have hmax : s.options.searchLimit ≤ maxLimit := by decide +kernel
  have hquery : ∀ {name contains rows}, ((TagQuery.name name false contains none).rows.run s).1 = rows →
      (TagQuery.modeTest name false contains s.options.caseSensitive).isTooLong = false →
      (s.database.tags.countP fun r => (TagQuery.modeTest name false contains s.options.caseSensitive).holds r.tag.name) ≤
        s.options.searchLimit →
      report name contains none = .printed (Output.tags .auto rows) ∧ report name contains (some "ns") =
        .printed (Output.tags .auto ((rows.filter (·.tag.parent = "ns")).filter (·.tag.name = name))) := by
    rintro name contains _ rfl hshort hfit
    obtain ⟨_, hopened⟩ := parent_narrows_exact_name i {} none 0 d hd name "ns" false contains
    obtain ⟨hall, hnarrowed, hsame⟩ := hopened s _ ho
    obtain ⟨hnamed, _⟩ := hsame hshort hmax hfit
    exact ⟨hall, hnamed ▸ hnarrowed⟩
  have hstart : ((TagQuery.name "fo" false false none).rows.run s).1 = [⟨1, tag "foo" "ns"⟩] := by decide +kernel
  have hpart : ((TagQuery.name "oo" false true none).rows.run s).1 = [⟨1, tag "foo" "ns"⟩] := by decide +kernel
  have hwhole : ((TagQuery.name "foo" false true none).rows.run s).1 = [⟨1, tag "foo" "ns"⟩] := by decide +kernel
  exact ⟨by decide +kernel, by decide +kernel, hquery hstart (by decide +kernel) (by decide +kernel),
    hquery hpart (by decide +kernel) (by decide +kernel), hquery hwhole (by decide +kernel) (by decide +kernel)⟩

end Invocation
end TagIndex
