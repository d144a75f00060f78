import TagIndex.Proofs.MergedScopes

/-!
# What a whole file sees

The lookup joins the tags of the anonymous scopes of a file, of the given kinds if there are any, with its members,
variables, classes, structs and enums. Where neither query is cut, these are all of them, each once, by line; tags on
one line keep the order in which they were found, those of the anonymous scopes first.
-/

namespace TagIndex

open Lookup Store Query

variable {db : Database} {r : Row} {file name : String} {kinds : List String} {limit : Nat} {front back rows : List Row}

/-! ## What is visible -/

/-- The rows of a file whose names start with a text. -/
def Database.namedInFile (db : Database) (file name : String) : List Row :=
  db.tags.filter fun r => r.tag.file = file ∧ Text.Begins name r.tag.name

namespace Tag

/-- The scope of the tag starts as those of anonymous constructs do, up to the case of letters. -/
def InAnonymousScope (t : Tag) : Prop := Text.lowered anonymousPrefix.toList <+: Text.lowered t.scope.toList

instance (t : Tag) : Decidable t.InAnonymousScope :=
  inferInstanceAs (Decidable (Text.lowered anonymousPrefix.toList <+: Text.lowered t.scope.toList))

/-- The tag is in an anonymous scope and has one of the kinds, if there are any. -/
def KeptAnonymous (kinds : List String) (t : Tag) : Prop := t.InAnonymousScope ∧ (kinds = [] ∨ t.kind ∈ kinds)

/-- The whole file sees the tag. -/
def VisibleInFile (kinds : List String) (t : Tag) : Prop := t.kind ∈ Kind.fileLevel ∨ t.KeptAnonymous kinds

end Tag

theorem begins_anonymousPrefix (text : String) : Text.Begins anonymousPrefix text ↔
    Text.lowered anonymousPrefix.toList <+: Text.lowered text.toList := by
  have hplain : anonymousPrefix.toList.all fun c =>
      c ≠ '\x00' ∧ Text.isNoCharacter c = false ∧ c ≠ Text.replacementSign := by decide
  exact Text.begins_iff_lowered text fun c hc => of_decide_eq_true (List.all_eq_true.mp hplain c hc)

theorem mem_namedInFile : r ∈ db.namedInFile file name ↔
    r ∈ db.tags ∧ r.tag.file = file ∧ Text.Begins name r.tag.name := by
  rw [Database.namedInFile, List.mem_filter, decide_eq_true_iff]

/-! ## The two queries -/

namespace Query

theorem holds_file : (Condition.column .file (.is file)).holds db r ↔ r.tag.file = file := decide_eq_true_iff

theorem accepts_anonymousOfFile : (anonymousOfFile file name limit).accepts db r ↔
    (r.tag.file = file ∧ Text.Begins name r.tag.name) ∧ r.tag.InAnonymousScope := by
  have hconditions : (anonymousOfFile file name limit).conditions =
      [.column .file (.is file), .column .scope (.like (Text.startingWith anonymousPrefix))] ++ nameFilter name := rfl
  rw [accepts, List.all_eq_true, hconditions, List.forall_mem_append, List.forall_mem_cons, List.forall_mem_singleton,
    holds_nameFilter, holds_file]
  simp only [Condition.holds, Test.holds, TextColumn.of, Text.matchesPattern_startingWith, begins_anonymousPrefix]
  exact and_right_comm

theorem accepts_membersOfFile : (membersOfFile file name limit).accepts db r ↔
    (r.tag.file = file ∧ Text.Begins name r.tag.name) ∧ r.tag.kind ∈ Kind.fileLevel := by
  have hconditions : (membersOfFile file name limit).conditions =
      [.column .file (.is file), .column .kind (.oneOf Kind.fileLevel)] ++ nameFilter name := rfl
  rw [accepts, List.all_eq_true, hconditions, List.forall_mem_append, List.forall_mem_cons, List.forall_mem_singleton,
    holds_nameFilter, holds_file]
  simp only [Condition.holds, Test.holds, TextColumn.of, List.contains_iff_mem]
  exact and_right_comm

/-- A name that makes no overlong pattern adds a condition that the database takes. -/
theorem taken_inFile {c : Condition} (hfew : c.valueCount ≤ 5) (hshort : c.isTooLong = false)
    (hname : (Text.startingWith name).utf8ByteSize ≤ Text.maxPatternBytes) :
    Taken db { conditions := [.column .file (.is file), c] ++ nameFilter name, limit } := by
  refine ⟨?_, meetsTooLong_eq_false ?_⟩
  · have hmost : 1 + c.valueCount + 1 ≤ maxValues := Nat.le_trans (by omega) (by decide : 7 ≤ maxValues)
    have hsum : [Condition.column .file (.is file), c].foldl (fun n c => n + c.valueCount) 0 = 1 + c.valueCount :=
      congrArg (· + c.valueCount) (Nat.zero_add 1)
    simp only [isTooLarge, List.foldl_append, hsum, Bool.or_eq_false_iff, decide_eq_false_iff_not, Nat.not_lt]
    unfold nameFilter
    split
    · exact ⟨(by decide : 2 ≤ maxConditions), Nat.le_of_succ_le hmost⟩
    · exact ⟨(by decide : 3 ≤ maxConditions), hmost⟩
  · simp only [List.forall_mem_append, List.forall_mem_cons]
    exact ⟨⟨rfl, hshort, List.forall_mem_nil _⟩, isTooLong_nameFilter hname⟩

end Query

namespace Store

theorem namedInFile_of_mem_anonymous (h : r ∈ found (anonymousOfFile file name limit) kinds db) :
    r ∈ db.namedInFile file name ∧ r.tag.KeptAnonymous kinds := by
  obtain ⟨hnamed, hscope⟩ := accepts_anonymousOfFile.mp (mem_found h).2
  exact ⟨mem_namedInFile.mpr ⟨(mem_found h).1, hnamed⟩, hscope, kind_of_mem_found h⟩

theorem namedInFile_of_mem_members (h : r ∈ found (membersOfFile file name limit) [] db) :
    r ∈ db.namedInFile file name ∧ r.tag.kind ∈ Kind.fileLevel := by
  obtain ⟨hnamed, hkind⟩ := accepts_membersOfFile.mp (mem_found h).2
  exact ⟨mem_namedInFile.mpr ⟨(mem_found h).1, hnamed⟩, hkind⟩

section Uncut

variable (hname : (Text.startingWith name).utf8ByteSize ≤ Text.maxPatternBytes) (hmax : limit ≤ maxLimit)

include hname hmax

/-- A limit for all rows of anonymous scopes cuts none of them, whatever kinds are asked for. -/
theorem mem_found_anonymous
    (hall : ((db.namedInFile file name).filter fun r => r.tag.InAnonymousScope).length ≤ limit) :
    r ∈ found (anonymousOfFile file name limit) kinds db ↔
      r ∈ db.namedInFile file name ∧ r.tag.KeptAnonymous kinds := by
  have hcount : db.tags.countP ((anonymousOfFile file name limit).accepts db) ≤ limit := by
    refine Nat.le_trans (Nat.le_of_eq ?_) hall
    rw [Database.namedInFile, List.filter_filter, List.countP_eq_length_filter]
    refine congrArg _ (List.filter_congr fun r _ => ?_)
    rw [Bool.eq_iff_iff, accepts_anonymousOfFile, Bool.and_eq_true, decide_eq_true_iff, decide_eq_true_iff, and_comm]
  have htaken : (anonymousOfFile file name limit).Taken db := taken_inFile (by decide) (by decide +kernel) hname
  rw [mem_found_iff htaken hcount hmax, accepts_anonymousOfFile, mem_namedInFile, and_assoc, ← and_assoc]
  rfl

theorem mem_found_members
    (hall : ((db.namedInFile file name).filter fun r => r.tag.kind ∈ Kind.fileLevel).length ≤ limit) :
    r ∈ found (membersOfFile file name limit) [] db ↔
      r ∈ db.namedInFile file name ∧ r.tag.kind ∈ Kind.fileLevel := by
  have hcount : db.tags.countP ((membersOfFile file name limit).accepts db) ≤ limit := by
    refine Nat.le_trans (Nat.le_of_eq ?_) hall
    rw [Database.namedInFile, List.filter_filter, List.countP_eq_length_filter]
    refine congrArg _ (List.filter_congr fun r _ => ?_)
    rw [Bool.eq_iff_iff, accepts_membersOfFile, Bool.and_eq_true, decide_eq_true_iff, decide_eq_true_iff, and_comm]
  have htaken : (membersOfFile file name limit).Taken db := taken_inFile (by decide) rfl hname
  rw [mem_found_iff htaken hcount hmax, accepts_membersOfFile, mem_namedInFile]
  simp [and_assoc]

end Uncut

/-! ## By line -/

/-- What has been kept stays in front. -/
theorem prefix_distinctRows (h : (front.map (·.id)).Nodup) (back : List Row) : front <+: distinctRows (front ++ back) := by
  let step (kept : List Row) (r : Row) : List Row := if kept.any (·.id = r.id) then kept else kept ++ [r]
  have hgrow : ∀ rows kept : List Row, kept <+: rows.foldl step kept := by
    intro rows
    induction rows with
    | nil => exact List.prefix_refl
    | cons r rows ih =>
        intro kept
        refine List.IsPrefix.trans ?_ (ih _)
        unfold step
        split
        · exact List.prefix_rfl
        · exact List.prefix_append _ _
  have hkeep : ∀ rows kept : List Row, ((kept ++ rows).map (·.id)).Nodup → rows.foldl step kept = kept ++ rows := by
    intro rows
    induction rows with
    | nil => exact fun kept _ => (List.append_nil kept).symm
    | cons r rows ih =>
        intro kept hkept
        have hnew : kept.any (·.id = r.id) = false := by
          rw [List.map_append, List.nodup_append] at hkept
          simp only [List.any_eq_false, decide_eq_true_eq]
          exact fun o ho he => hkept.2.2 _ (List.mem_map_of_mem ho) _ List.mem_cons_self he
        have hstep : step kept r = kept ++ [r] := by simp only [step, hnew, Bool.false_eq_true, if_false]
        have hcons : kept ++ r :: rows = kept ++ [r] ++ rows := by simp
        rw [List.foldl_cons, hstep, hcons, ih _ (hcons ▸ hkept)]
  have hfront : front.foldl step [] = front := hkeep front [] h
  show front <+: (front ++ back).foldl step []
  rw [List.foldl_append, hfront]
  exact hgrow back front

theorem nodup_byLine (rows : List Row) : ((sortByLine (distinctRows rows)).map (·.id)).Nodup := by
  rw [List.nodup_iff_count_le_one]
  intro id
  rw [sortByLine, ((List.mergeSort_perm _ _).map _).count_eq id, count_distinctRows]
  split <;> simp

theorem le_line_trans (a b c : Row) (hab : decide (a.tag.line ≤ b.tag.line)) (hbc : decide (b.tag.line ≤ c.tag.line)) :
    decide (a.tag.line ≤ c.tag.line) :=
  decide_eq_true (Int.le_trans (of_decide_eq_true hab) (of_decide_eq_true hbc))

theorem le_line_total (a b : Row) : decide (a.tag.line ≤ b.tag.line) || decide (b.tag.line ≤ a.tag.line) := by
  simpa using Int.le_total a.tag.line b.tag.line

theorem pairwise_sortByLine (rows : List Row) : (sortByLine rows).Pairwise fun a b => a.tag.line ≤ b.tag.line :=
  (List.pairwise_mergeSort le_line_trans le_line_total rows).imp of_decide_eq_true

/-- Two rows of a list without repetition stand in it in one order only. -/
theorem not_sublist_swap {a b : Row} (h : rows.Nodup) (hab : [a, b].Sublist rows) : ¬ [b, a].Sublist rows := by
  induction rows with
  | nil => cases hab
  | cons c rows ih =>
      obtain ⟨hc, hrows⟩ := List.nodup_cons.mp h
      intro hba
      cases hab with
      | cons _ hab =>
          cases hba with
          | cons _ hba => exact ih hrows hab hba
          | cons_cons _ _ => exact hc (hab.subset (.tail _ (.head _)))
      | cons_cons _ hb =>
          cases hba with
          | cons _ hba => exact hc (hba.subset (.tail _ (.head _)))
          | cons_cons _ _ => exact hc (hb.subset (.head _))

/-- Sorting is stable: what ties stays in the order in which it stood. -/
theorem pairwise_mergeSort_of_pairwise {le : Row → Row → Bool} {R : Row → Row → Prop}
    (htrans : ∀ a b c, le a b → le b c → le a c) (htotal : ∀ a b, le a b || le b a) (hn : rows.Nodup)
    (hrows : rows.Pairwise R) : (rows.mergeSort le).Pairwise fun a b => le a b ∧ (le b a → R a b) := by
  have hnodup : (rows.mergeSort le).Nodup := (List.mergeSort_perm _ _).nodup_iff.mpr hn
  have hsorted : (rows.mergeSort le).Pairwise fun a b => le a b := List.pairwise_mergeSort htrans htotal rows
  rw [List.pairwise_iff_forall_sublist] at hsorted ⊢
  intro a b hab
  refine ⟨hsorted hab, fun hba => ?_⟩
  have ha : a ∈ rows := List.mem_mergeSort.mp (hab.subset (.head _))
  have hb : b ∈ rows := List.mem_mergeSort.mp (hab.subset (.tail _ (.head _)))
  have hne : a ≠ b := List.rel_of_pairwise_cons (hnodup.sublist hab) (.head _)
  -- in the other order they would have been kept in that one
  have hother : ¬ [b, a].Sublist rows := fun hrows =>
    not_sublist_swap hnodup hab (List.pair_sublist_mergeSort htrans htotal hba hrows)
  obtain ⟨front, back, rfl⟩ := List.append_of_mem ha
  rcases List.mem_append.mp hb with hb | hb
  · exact absurd ((List.singleton_sublist.mpr hb).append (List.singleton_sublist.mpr (.head _))) hother
  · have hback : b ∈ back := (List.mem_cons.mp hb).resolve_left hne.symm
    exact List.rel_of_pairwise_cons (List.pairwise_append.mp hrows).2.1 hback

/-- On one line, what stood in front stays there. -/
theorem pairwise_front_sortByLine (h : (front ++ back).Nodup) : (sortByLine (front ++ back)).Pairwise
    fun a b => a.tag.line = b.tag.line → b ∈ front → a ∈ front := by
  have hfront : (front ++ back).Pairwise fun a b => b ∈ front → a ∈ front := by
    rw [List.pairwise_append]
    refine ⟨List.pairwise_of_forall_mem_list fun _ ha _ _ _ => ha, List.pairwise_of_forall_mem_list fun _ _ b hb hin => ?_,
      fun _ ha _ _ _ => ha⟩
    exact absurd rfl ((List.nodup_append.mp h).2.2 b hin b hb)
  refine (pairwise_mergeSort_of_pairwise le_line_trans le_line_total h hfront).imp fun hab hline => ?_
  exact hab.2 (decide_eq_true (Int.le_of_eq hline.symm))

/-! ## The lookup -/

variable {A : List String → Prop} {s : Store}

/-- Whatever the file refuses, both queries have found their rows in one state of the tables. -/
theorem yields_fileScopedTags (h : s.IsCurrentBy A) (hn : Told A []) (hk : A kinds) (ht : Told A kinds)
    (hf : file ≠ "") (name : String) : Yields s (fileScopedTags file name kinds) fun answer t =>
      ∃ db anonymous members, (db = s.database ∨ db = t.database) ∧
        answer = sortByLine (distinctRows (anonymous ++ members)) ∧
        (anonymous = [] ∨ anonymous = found (anonymousOfFile file name s.options.searchLimit) kinds db) ∧
        (members = [] ∨ members = found (membersOfFile file name s.options.searchLimit) [] db) := by
  rw [fileScopedTags, if_neg hf]
  refine .limited (.bind ((yields_first h hk ht _).imp ?_))
  rintro anonymous t ⟨⟨hkeeps, ho⟩, hanonymous⟩
  refine .limited (.bind ((yields_second hkeeps hn _).imp ?_))
  rw [ho]
  intro members u hmembers
  obtain ⟨db, hdb, hanonymous, hmembers⟩ := found_together (X := found (anonymousOfFile file name _) kinds)
    (Y := found (membersOfFile file name _) []) hanonymous hmembers
  exact ⟨db, anonymous, members, hdb, rfl, hanonymous.imp_right And.right, hmembers⟩

/-- Where neither query is cut, everything that is visible is found, and what was kept of the anonymous scopes stands
first on its line. -/
theorem mem_fileLevel (hs : db.Sound) (hname : (Text.startingWith name).utf8ByteSize ≤ Text.maxPatternBytes)
    (hmax : limit ≤ maxLimit)
    (ha : ((db.namedInFile file name).filter fun r => r.tag.InAnonymousScope).length ≤ limit)
    (hm : ((db.namedInFile file name).filter fun r => r.tag.kind ∈ Kind.fileLevel).length ≤ limit) :
    let answer := sortByLine (distinctRows
      (found (anonymousOfFile file name limit) kinds db ++ found (membersOfFile file name limit) [] db))
    (∀ r, r ∈ answer ↔ r ∈ db.namedInFile file name ∧ r.tag.VisibleInFile kinds) ∧
      answer.Pairwise fun a b => a.tag.line = b.tag.line → b.tag.KeptAnonymous kinds → a.tag.KeptAnonymous kinds := by
  intro answer
  have hanonymous : ∀ r, r ∈ found (anonymousOfFile file name limit) kinds db ↔ _ :=
    fun r => mem_found_anonymous hname hmax ha
  have hmembers : ∀ r, r ∈ found (membersOfFile file name limit) [] db ↔ _ :=
    fun r => mem_found_members hname hmax hm
  have hall : ∀ r, r ∈ answer ↔ r ∈ db.namedInFile file name ∧ r.tag.VisibleInFile kinds := by
    intro r
    have hrows : ∀ r ∈ found (anonymousOfFile file name limit) kinds db ++ found (membersOfFile file name limit) [] db,
        r ∈ db.tags := fun r hr => (List.mem_append.mp hr).elim (fun hr => (mem_found hr).1) fun hr => (mem_found hr).1
    rw [mem_byLine hs hrows, List.mem_append, hanonymous, hmembers, ← and_or_left, or_comm]
    rfl
  refine ⟨hall, ?_⟩
  obtain ⟨rest, hrest⟩ := prefix_distinctRows (nodup_ids_found hs.nodup_ids (anonymousOfFile file name limit) kinds)
    (found (membersOfFile file name limit) [] db)
  have hanswer : answer = sortByLine (found (anonymousOfFile file name limit) kinds db ++ rest) := by
    rw [hrest]
  have hnodup : (found (anonymousOfFile file name limit) kinds db ++ rest).Nodup := by
    have hsorted : answer.Nodup := (nodup_byLine _).of_map _
    rwa [hanswer, sortByLine, (List.mergeSort_perm _ _).nodup_iff] at hsorted
  have hfront := pairwise_front_sortByLine hnodup
  rw [← hanswer] at hfront
  refine hfront.imp_of_mem fun _ hb hab hline hkept => ?_
  exact ((hanonymous _).mp (hab hline ((hanonymous _).mpr ⟨((hall _).mp hb).1, hkept⟩))).2

/-- In a session that keeps no answers, the rows of a file whose names start with a text are answered exactly where they
are visible, if the rows of anonymous scopes fit under the limit and those of members do, and the file refuses nothing.
However many there are, and whatever the file refuses, visible rows are answered, each once, by line. -/
theorem file_level_exactly (h : s.Reachable) (hempty : s.cache.entries = []) (hf : file ≠ "")
    (hname : (Text.startingWith name).utf8ByteSize ≤ Text.maxPatternBytes) (kinds : List String)
    (hmax : s.options.searchLimit ≤ maxLimit) :
    let rows := s.database.namedInFile file name
    let run := (fileScopedTags file name kinds).run s
    (s.Steady → (rows.filter fun r => r.tag.InAnonymousScope).length ≤ s.options.searchLimit →
      (rows.filter fun r => r.tag.kind ∈ Kind.fileLevel).length ≤ s.options.searchLimit →
      (∀ r, r ∈ run.1 ↔ r ∈ rows ∧ r.tag.VisibleInFile kinds) ∧ run.1.Pairwise fun a b =>
        a.tag.line = b.tag.line → b.tag.KeptAnonymous kinds → a.tag.KeptAnonymous kinds) ∧
    (∃ db, (db = s.database ∨ db = run.2.database) ∧
      ∀ r ∈ run.1, r ∈ db.namedInFile file name ∧ r.tag.VisibleInFile kinds) ∧
    (run.1.map (·.id)).Nodup ∧ run.1.Pairwise fun a b => a.tag.line ≤ b.tag.line := by
  intro rows run
  -- The two queries filter by no kinds or by these, so no others need to be told apart.
  let A (kinds' : List String) : Prop := kinds' = [] ∨ kinds' = kinds
  have hn : Told A [] := fun _ _ htext => kindsText_eq_empty htext
  have ht : Told A kinds := by
    rintro _ (rfl | rfl) htext
    · exact (kindsText_eq_empty htext.symm).symm
    · rfl
  have hcurrent : s.IsCurrentBy A := .of_empty hempty
  have hyields := yields_fileScopedTags hcurrent hn (.inr rfl) ht hf name
  obtain ⟨db, anonymous, members, hdb, hanswer, hanonymous, hmembers⟩ := hyields
  have hrun : run.1 = sortByLine (distinctRows (anonymous ++ members)) := hanswer
  refine ⟨fun hsteady ha hm => ?_, ⟨db, hdb, fun r hr => ?_⟩, hrun ▸ nodup_byLine _, hrun ▸ pairwise_sortByLine _⟩
  · have hserves := serves_fileScopedTags (.inl rfl) hn (.inr rfl) ht hf name s ⟨hsteady, hcurrent, rfl, rfl⟩
    have hall : run.1 = _ := hserves.2
    rw [hall]
    exact mem_fileLevel h.sound_database hname hmax ha hm
  · rw [hrun] at hr
    rcases List.mem_append.mp (mem_of_mem_distinctRows (List.mem_mergeSort.mp hr)) with hr | hr
    · rcases hanonymous with rfl | rfl
      · cases hr
      · exact (namedInFile_of_mem_anonymous hr).imp_right .inr
    · rcases hmembers with rfl | rfl
      · cases hr
      · exact (namedInFile_of_mem_members hr).imp_right .inl

/-- With a limit of two, three rows: one of them is in an anonymous scope and not of the kind that is asked for, but
it is a variable. -/
theorem file_level_exactly_three :
    let tag (name kind scope : String) (line : Int) : Tag := { name, file := "f.c", line, kind, path := name, scope }
    let tags := [tag "a" "function" "__anon1" 2, tag "ab" "variable" "__ANON2" 1, tag "AC" "member" "S" 2,
      tag "ad" "function" "S" 1, tag "b" "struct" "S" 1]
    let s := Step.act (Step.act (Step.act {} (.setSearchLimit 2)) (.openPath "tags.db")) (.storeTags tags 0 true)
    let answer := ((fileScopedTags "f.c" "A" ["function"]).run s).1
    ∀ r, r ∈ answer ↔ r = ⟨1, tag "a" "function" "__anon1" 2⟩ ∨ r = ⟨2, tag "ab" "variable" "__ANON2" 1⟩ ∨
      r = ⟨3, tag "AC" "member" "S" 2⟩ := by
  intro tag tags s answer r
  obtain ⟨hu, _, hcalm⟩ : s.Unscathed ∧ s.PlainlyAsked ∧ s.disk.Calm := stored_once 2 _
  have hsteady : s.Steady := steady_of_any hcalm (by decide +kernel)
  have hlimit : s.options.searchLimit = 2 := by decide +kernel
  have hrows : s.database.namedInFile "f.c" "A" = [⟨1, tag "a" "function" "__anon1" 2⟩,
      ⟨2, tag "ab" "variable" "__ANON2" 1⟩, ⟨3, tag "AC" "member" "S" 2⟩, ⟨4, tag "ad" "function" "S" 1⟩] := by
    decide +kernel
  have hempty : s.cache.entries = [] := by decide +kernel
  obtain ⟨hexactly, _⟩ := file_level_exactly hu.reachable hempty (show "f.c" ≠ "" by decide)
    (show (Text.startingWith "A").utf8ByteSize ≤ Text.maxPatternBytes by decide +kernel) ["function"]
    (by rw [hlimit]; decide)
  rw [hrows, hlimit] at hexactly
  rw [(hexactly hsteady (by decide +kernel) (by decide +kernel)).1]
  simp only [List.mem_cons, List.not_mem_nil, or_false]
  constructor
  · rintro ⟨rfl | rfl | rfl | rfl, hvisible⟩
    · exact .inl rfl
    · exact .inr (.inl rfl)
    · exact .inr (.inr rfl)
    · exact absurd hvisible (by unfold Tag.VisibleInFile Tag.KeptAnonymous; decide +kernel)
  · rintro (rfl | rfl | rfl) <;> exact ⟨by simp, by unfold Tag.VisibleInFile Tag.KeptAnonymous; decide +kernel⟩

/-- A file that another process holds is not read, and names are compared as patterns see them. -/
theorem file_level_not_exactly :
    let tag : Tag := { name := "\uffff", file := "f.c", line := 1, kind := "member", path := "p" }
    let s := Step.act (Step.act (Step.act {} (.setSearchLimit 250)) (.openPath "tags.db")) (.storeTags [tag] 0 true)
    let locked := Step.act s (.outside (s.disk.lock "tags.db"))
    (locked.Reachable ∧ locked.cache.entries = [] ∧ locked.options.searchLimit = 250 ∧
      locked.database.tags = [⟨1, tag⟩] ∧ tag.file = "f.c" ∧ tag.kind ∈ Kind.fileLevel ∧
      ((fileScopedTags "f.c" "" []).run locked).1 = []) ∧
    s.Reachable ∧ s.Steady ∧ s.cache.entries = [] ∧ s.options.searchLimit = 250 ∧
      ¬ Text.lowered "\ufffe".toList <+: Text.lowered tag.name.toList ∧
      ((fileScopedTags "f.c" "\ufffe" []).run s).1 = [⟨1, tag⟩] := by
  intro tag s locked
  obtain ⟨hu, _, hcalm⟩ : s.Unscathed ∧ s.PlainlyAsked ∧ s.disk.Calm := stored_once 250 _
  have hsteady : s.Steady := steady_of_any hcalm (by decide +kernel)
  have hlocked : locked.Reachable :=
    .next (.outside (s.disk.lock "tags.db")) hu.reachable (Disk.leaves_lock _ _) trivial
  exact ⟨⟨hlocked, by decide +kernel, by decide +kernel, by decide +kernel, rfl, by decide, by decide +kernel⟩,
    hu.reachable, hsteady, by decide +kernel, by decide +kernel, by decide, by decide +kernel⟩

end Store
end TagIndex
