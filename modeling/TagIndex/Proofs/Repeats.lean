import TagIndex.Proofs.Damage
import TagIndex.Proofs.FailedOpen
import TagIndex.Proofs.FileLevel

/-!
# Rows that come twice

One query answers each row once, as its id comes once in the table. The lookups that join the rows of several queries
keep this, but for the one that asks for kinds scope by scope: there a row comes as often as its scope is listed.
-/

namespace TagIndex

open Lookup Store Query

variable {rows tags : List Row} {scopes kinds : List String} {limit : Nat} {r : Row}

namespace Store

variable {s t : Store} {c : Connection} {db : Database} {q : Query}

/-! ## One query -/

/-- The rows are some of the given ones, each at most once, and the query accepts them. -/
structure Picked (q : Query) (rows picked : List Row) : Prop where
  once : (picked.map (·.id)).Nodup
  subset : ∀ r ∈ picked, r ∈ rows ∧ ∃ db, q.accepts db r

theorem found_picked (hids : (db.tags.map (·.id)).Nodup) (q : Query) (kinds : List String) :
    Picked q db.tags (found q kinds db) :=
  ⟨nodup_ids_found hids q kinds, fun _ hr => (mem_found hr).imp_right (⟨db, ·⟩)⟩

/-- Rows that are fetched are picked from the tables that the session sees, or from those that an answer was kept
of. -/
theorem KeepsFrom.fetchKinds_picked {A : List String → Prop} {D : Database → Prop} (h : s.KeepsFrom A D)
    (hd : D s.database) (hids : ∀ db, D db → (db.tags.map (·.id)).Nodup) (q : Query) (kinds : List String) :
    ∃ db, D db ∧ Picked q db.tags ((Store.fetchKinds q kinds).run s).1 := by
  rcases h.fetchKinds_filtered q kinds with ⟨db, kinds', hdb, _, _, hfound⟩ | hfound | ⟨_, hnone⟩
  · exact ⟨db, hdb, hfound ▸ found_picked (hids db hdb) q kinds'⟩
  · exact ⟨s.database, hd, hfound ▸ found_picked (hids _ hd) q kinds⟩
  · rw [hnone]
    exact ⟨s.database, hd, .nil, List.forall_mem_nil _⟩

/-! ## Several queries -/

/-- Opening the file again loses nothing that the session sees: either it is not opened again, or nothing is pending. -/
def Lossless (s : Store) : Prop := s.Steady ∨ s.Idle ∧ s.OnPath

/-- The tables have the given rows, or none. -/
def HasRows (rows : List Row) (db : Database) : Prop := db.tags = rows ∨ db.tags = []

theorem HasRows.nodup_ids {rows : List Row} (h : HasRows rows db) (hids : (rows.map (·.id)).Nodup) :
    (db.tags.map (·.id)).Nodup := by
  rcases h with hsame | hnone
  · rwa [hsame]
  · rw [hnone]
    exact .nil

/-- The session tells nothing but these rows. -/
structure Tells (rows : List Row) (s : Store) : Prop where
  kept : s.KeepsFrom (fun _ => True) (HasRows rows)
  lossless : s.Lossless
  tags : HasRows rows s.database

theorem lossless_moves (h : s.Lossless) (hc : s.connection = some c) (hm : Moves s c s.database t) : t.Lossless :=
  h.imp (fun hs => hm.steady hc hs) fun h => ⟨hm.idle hc h.1, lasting_onPath.moves hc hm h.2⟩

/-- When the file is opened again, the session has the tables on the disk, unless it cannot be opened at all. A scratch
place starts anew. -/
theorem reopen_tables (hp : s.OnPath) (hc : s.connection = some c) :
    s.reopen.2.connection = none ∨ s.reopen.2.connection = some { toHandle := c.toHandle } ∧
      ((s.disk.tables c.place).SameTables s.reopen.2.database ∨
        c.place = .scratch ∧ s.reopen.2.database.IsBlank) := by
  obtain ⟨path, hpath⟩ := hp.exists_path hc
  rcases reopen_cases hpath with ⟨_, _, hclosed⟩ | ⟨handle, disk, hd, hopened⟩
  · rw [hclosed]
    exact .inl rfl
  · obtain rfl : handle = c.toHandle := hp.eq_toHandle hc hpath hd
    rw [hopened]
    exact .inr ⟨rfl, Disk.connect_opens hd c.place⟩

/-- Without a transaction nothing is lost when the file is opened again, unless it cannot be opened at all. -/
theorem reopen_tags (hi : s.Idle) (hp : s.OnPath) (hc : s.connection = some c) :
    s.reopen.2.Idle ∧ (s.reopen.2.database.tags = s.database.tags ∨ s.reopen.2.database.tags = []) := by
  rcases reopen_tables hp hc with hclosed | ⟨hopened, htables⟩
  · exact ⟨idle_of_none hclosed, .inr (by simp only [database, hclosed])⟩
  · refine ⟨idle_of_all (by rw [hopened]; rfl), ?_⟩
    rw [database_eq hc, view_of_none (hi c hc)]
    exact htables.imp (fun h => h.tags) fun h => h.2.tags

/-- What moves keep, and opening the file again while nothing is pending, a question keeps where one of both is all
that can happen. -/
theorem askDatabase_keeps {α : Type} {J : Store → Prop} {f : Database → Except Fault α}
    (hl : s.Secure ∨ s.Idle ∧ s.OnPath) (hf : ∀ db e, f db = .error e → e.disturbs = false)
    (hmoves : ∀ {c t}, s.connection = some c → Moves s c s.database t → StaysOpen s t → J t)
    (hreopen : ∀ {c t}, t.connection = some c → t.Idle → t.OnPath → J t → J t.reopen.2) (h : J s) :
    J ((Store.askDatabase f).run s).2 := by
  cases hc : s.connection with
  | none => rwa [askDatabase_closed hc]
  | some c =>
      rcases hl with hu | hi
      · obtain ⟨hm, hs⟩ := hu.askDatabase hf hc
        exact hmoves hc hm hs
      have hidle : ∀ t, StaysOpen s t := fun _ _ => hi.1
      rcases s.askDatabase_cases f with ⟨_, c', hc', _, _, _, hm⟩ | ⟨_, hsame | ⟨c', t, e, hc', hm, hheal⟩⟩
      · exact hmoves hc' hm (hidle _)
      · rwa [hsame]
      · rw [hheal, heal]
        have ht := hmoves hc' hm (hidle _)
        split
        · obtain ⟨d, hd⟩ := Option.isSome_iff_exists.mp (hm.isOpen hc')
          exact hreopen hd (hm.idle hc' hi.1) (lasting_onPath.moves hc' hm hi.2) ht
        · exact ht

theorem Tells.moves (h : s.Tells rows) (hc : s.connection = some c) (hm : Moves s c s.database t)
    (hs : StaysOpen s t) : t.Tells rows where
  kept := h.kept.remains (.inl hm.cache)
  lossless := lossless_moves h.lossless hc hm
  tags := by rcases hm.database hc hs with hd | hd <;> rw [hd] <;> exact h.tags

theorem Tells.reopen (h : s.Tells rows) (hi : s.Idle) (hp : s.OnPath) (hc : s.connection = some c) :
    s.reopen.2.Tells rows := by
  obtain ⟨hidle, htags⟩ := reopen_tags hi hp hc
  refine ⟨h.kept.remains s.reopen_remains.1, .inr ⟨hidle, lasting_onPath.reopen hp⟩, ?_⟩
  rcases htags with hsame | hnone
  · rw [HasRows, hsame]
    exact h.tags
  · exact .inr hnone

theorem Tells.askDatabase {f : Database → Except Fault (List Row)} (h : s.Tells rows)
    (hf : ∀ db e, f db = .error e → e.disturbs = false) : ((Store.askDatabase f).run s).2.Tells rows :=
  askDatabase_keeps (h.lossless.imp_left Steady.secure) hf (fun hc hm hs => h.moves hc hm hs)
    (fun hc hi hp ht => ht.reopen hi hp hc) h

theorem Tells.fetchKinds (h : s.Tells rows) (q : Query) (kinds : List String) :
    ((Store.fetchKinds q kinds).run s).2.Tells rows := by
  have hasked := h.askDatabase (f := q.run) fun _ _ => disturbs_of_run
  have hkept : ((Store.fetchKinds q kinds).run s).2.KeepsFrom (fun _ => True) (HasRows rows) :=
    h.kept.fetchKinds h.tags trivial q
  rcases s.fetchKinds_cases q kinds with hs | hs | ⟨_, _, hs⟩ <;> rw [hs] at hkept ⊢
  · exact h
  · exact hasked
  · exact ⟨hkept, hasked.lossless, hasked.tags⟩

theorem meets_fetchKinds (hids : (rows.map (·.id)).Nodup) (q : Query) (kinds : List String) :
    Meets (Tells rows) (fetchKinds q kinds) (Picked q rows) := by
  intro s h
  refine ⟨h.fetchKinds q kinds, ?_⟩
  obtain ⟨db, hdb, hpicked⟩ := h.kept.fetchKinds_picked h.tags (fun _ hdb => hdb.nodup_ids hids) q kinds
  rcases hdb with hsame | hnone
  · rwa [hsame] at hpicked
  · rw [hnone] at hpicked
    exact ⟨hpicked.once, fun r hr => absurd (hpicked.subset r hr).1 List.not_mem_nil⟩

/-- A row comes at most once with each of the scopes that is its own. -/
theorem Picked.count_le {scope : String} {picked : List Row} (hids : (rows.map (·.id)).Nodup)
    (h : Picked (byScope scope limit) rows picked) (hr : r ∈ rows) :
    (picked.map (·.id)).count r.id ≤ [scope].count r.tag.scope := by
  by_cases hid : r.id ∈ picked.map (·.id)
  · obtain ⟨o, ho, he⟩ := List.mem_map.mp hid
    obtain ⟨hrow, db, haccepts⟩ := h.subset o ho
    obtain rfl := List.inj_on_of_nodup_map hids hrow hr he
    have hscope : o.tag.scope = scope := by
      simpa [accepts, byScope, Condition.holds, Test.holds, TextColumn.of] using haccepts
    rw [hscope, List.count_cons_self]
    exact Nat.le_trans (List.nodup_iff_count_le_one.mp h.once _) (Nat.le_add_left _ _)
  · rw [List.count_eq_zero.mpr hid]
    exact Nat.zero_le _

/-- The rows are among the given ones, and each has come as often as its scope at most. -/
structure Gathers (scopes : List String) (rows gathered : List Row) : Prop where
  subset : ∀ r ∈ gathered, r ∈ rows
  count : ∀ r ∈ rows, (gathered.map (·.id)).count r.id ≤ scopes.count r.tag.scope

theorem meets_tagsOfScopes (hids : (rows.map (·.id)).Nodup) {done : List String} (h : Gathers done rows tags) :
    Meets (Tells rows) (tagsOfScopes limit kinds scopes tags) (Gathers (done ++ scopes) rows) := by
  induction scopes generalizing done tags with
  | nil =>
      rw [List.append_nil]
      exact .pure h
  | cons scope scopes ih =>
      refine Meets.bind (meets_fetchKinds hids _ kinds) fun picked hpicked => ?_
      have hnext : Gathers (done ++ [scope]) rows (tags ++ picked) := by
        refine ⟨fun r hr => (List.mem_append.mp hr).elim (h.subset r) fun hr => (hpicked.subset r hr).1, fun r hr => ?_⟩
        rw [List.map_append, List.count_append, List.count_append]
        exact Nat.add_le_add (h.count r hr) (hpicked.count_le hids hr)
      rw [List.append_cons]
      refine .ite (.pure ⟨hnext.subset, fun r hr => ?_⟩) (ih hnext)
      rw [List.count_append]
      exact Nat.le_trans (hnext.count r hr) (Nat.le_add_right _ _)

end Store

/-! ## Lookups -/

namespace Question

variable {question : Question} {s : Store}

/-- How often a lookup may answer a row: once, but for the lookup of kinds as often as its scope is listed. -/
def mentions : Question → Row → Nat
  | tagsByScopesAndKind scopes _, r => scopes.count r.tag.scope
  | _, _ => 1

/-- What joining the rows of several scopes relies on: that they are all found in the same rows, and that the
projection of the global scope tells rows of that scope. -/
def JoinsAlike (s : Store) : Question → Prop
  | tagsByScopesAndKind .. => s.Fresh ∧ (s.Steady ∨ s.Idle)
  | tagsByScopesAndName scopes .. => s.Fresh ∧ (globalScope ∈ scopes → s.Unscathed)
  | _ => True

theorem length_queries_le (h : question.AsksOnce) (caseSensitive : Bool) (limit : Nat) :
    (question.queries caseSensitive limit).length ≤ 1 := by
  have hunless : ∀ (p : Prop) [Decidable p] (a : Asked), (if p then [] else [a]).length ≤ 1 := by
    intro p _ a
    split <;> simp
  cases question with
  | fileScopedTags | tagsByScopesAndName | tagsByScopesAndKind => exact h.elim
  | tagsByFile | tagsByFileAndLine | tagsByScope | parameters | lambdas => exact Nat.le_refl 1
  | tagsByKindAndFile | tagsByScopeAndName | tagsByScopeAndKind | tagsByKind | tagsByPath | tagsByPathLimit
  | tagsByPathAndKind | tagsByKindAndPath | tagsByPathParts | tagsByName | tagsByPartName | tagsByNameAndParent =>
      exact hunless _ _
  | _ => exact Nat.zero_le 1

theorem nodup_of_asksOnce (h : question.AsksOnce) (hs : s.KeepsFrom (fun _ => True) Database.Sound)
    (hsound : s.database.Sound) :
    ((question.tags.run s).1.map (·.id)).Nodup := by
  have hgives : (question.tags.run s).1 = _ := gives_of_asksOnce h s
  have hone := length_queries_le h s.options.caseSensitive s.options.searchLimit
  have hnarrow : ∀ rows, (question.narrow rows).Sublist rows := by
    intro rows
    unfold narrow
    split
    · exact List.filter_sublist
    · exact List.Sublist.refl _
  rw [hgives]
  refine List.Nodup.sublist ((hnarrow _).map _) ?_
  match question.queries s.options.caseSensitive s.options.searchLimit, hone with
  | [], _ => exact .nil
  | [a], _ =>
      rw [rowsAsked, List.flatMap_singleton]
      obtain ⟨_, _, hpicked⟩ := hs.fetchKinds_picked hsound (fun _ h => h.nodup_ids) a.1 a.2
      exact hpicked.once

theorem mentions_of_asksOnce (h : question.AsksOnce) (r : Row) : question.mentions r = 1 := by
  cases question with
  | tagsByScopesAndKind => exact h.elim
  | _ => rfl

end Question

namespace Store

variable {s : Store} {name : String} {isPartial : Bool}

theorem nodup_fileScopedTags (s : Store) (file name : String) (kinds : List String) :
    (((fileScopedTags file name kinds).run s).1.map (·.id)).Nodup := by
  by_cases hf : file = ""
  · rw [fileScopedTags, if_pos hf]
    exact .nil
  · rw [fileScopedTags, if_neg hf]
    exact nodup_byLine _

theorem nodup_tagsByScopesAndName (h : s.Reachable) (hf : s.Fresh) (hu : globalScope ∈ scopes → s.Unscathed) (name : String)
    (isPartial : Bool) : (((tagsByScopesAndName scopes name isPartial).run s).1.map (·.id)).Nodup := by
  by_cases hn : name = ""
  · rw [tagsByScopesAndName, if_pos (.inr hn)]
    exact .nil
  · have hafter : ((tagsByScopesAndName scopes name isPartial).run s).2.Reachable :=
      .next (.ask (.tagsByScopesAndName scopes name isPartial)) h trivial trivial
    obtain ⟨⟨db, hdb, hrows⟩, hnodup, _⟩ := Joined.spec (yields_tagsByScopesAndName hf.isCurrent hn scopes isPartial)
      h.sound_database hafter.sound_database fun hm => (hu hm).projected_database
    have hsound : db.Sound := by
      rcases hdb with rfl | rfl
      · exact h.sound_database
      · exact hafter.sound_database
    exact hnodup.map_on fun a ha b hb hid => hsound.eq_of_id (hrows a ha).1 (hrows b hb).1 hid

theorem gathers_tagsByScopesAndKind (h : s.Reachable) (hf : s.Fresh) (hs : s.Steady ∨ s.Idle) (scopes kinds : List String) :
    Gathers scopes s.database.tags ((tagsByScopesAndKind scopes kinds).run s).1 := by
  have hnone : ∀ scopes, Gathers scopes s.database.tags [] :=
    fun _ => ⟨List.forall_mem_nil _, fun _ _ => Nat.zero_le _⟩
  rw [tagsByScopesAndKind]
  split
  · exact hnone scopes
  · rw [Lookup.run_limited]
    have htells : s.Tells s.database.tags := ⟨hf.isCurrent.keepsFrom.imp fun db hdb => .inl (hdb ▸ rfl),
      hs.imp_right fun hi => ⟨hi, h.onPath⟩, .inl rfl⟩
    exact (meets_tagsOfScopes h.sound_database.nodup_ids (hnone []) s htells).2

/-- Every lookup answers a row once, but the one of kinds answers it as often as its scope is listed. Where no scope is
listed twice, no row is answered twice. -/
theorem rows_answered_as_listed (h : s.Reachable) (question : Question) (hj : question.JoinsAlike s) :
    let ids := (question.tags.run s).1.map (·.id)
    (∀ r ∈ (question.tags.run s).1, ids.count r.id ≤ question.mentions r) ∧
      ((∀ r, question.mentions r ≤ 1) → ids.Nodup) := by
  intro ids
  suffices hcount : ∀ r ∈ (question.tags.run s).1, ids.count r.id ≤ question.mentions r by
    refine ⟨hcount, fun hone => List.nodup_iff_count_le_one.mpr fun id => ?_⟩
    by_cases hid : id ∈ ids
    · obtain ⟨r, hr, rfl⟩ := List.mem_map.mp hid
      exact Nat.le_trans (hcount r hr) (hone r)
    · rw [List.count_eq_zero.mpr hid]
      exact Nat.zero_le 1
  intro r hr
  by_cases hone : question.AsksOnce
  · rw [Question.mentions_of_asksOnce hone]
    exact List.nodup_iff_count_le_one.mp
      (Question.nodup_of_asksOnce hone h.keepsFrom_sound h.sound_database) _
  cases question with
  | fileScopedTags file name kinds =>
      exact List.nodup_iff_count_le_one.mp (nodup_fileScopedTags s file name kinds) _
  | tagsByScopesAndName scopes name isPartial =>
      exact List.nodup_iff_count_le_one.mp (nodup_tagsByScopesAndName h hj.1 hj.2 name isPartial) _
  | tagsByScopesAndKind scopes kinds =>
      have hgathers := gathers_tagsByScopesAndKind h hj.1 hj.2 scopes kinds
      exact hgathers.count r (hgathers.subset r hr)
  | _ => exact absurd trivial hone

/-- A row whose scope is listed twice comes twice, but not where a name is looked for. -/
theorem rows_answered_as_listed_twice :
    let tag : Tag := { name := "x", file := "f.c", kind := "k", path := "x", scope := "a" }
    let s := Step.act (Step.act (Step.act {} (.setSearchLimit 250)) (.openPath "tags.db")) (.storeTags [tag] 0 true)
    let ids (question : Question) := (question.tags.run s).1.map (·.id)
    ids (.tagsByScopesAndKind ["a", "a"] ["k"]) = [1, 1] ∧
      (ids (.tagsByScopesAndKind ["a", "b", "a"] ["k"])).count 1 ≤ 2 ∧ (ids (.tagsByScopesAndKind ["b", "a"] ["k"])).Nodup ∧
      (ids (.tagsByScopesAndName ["a", globalScope, "a"] "x" false)).Nodup := by
  intro tag s ids
  obtain ⟨hu, hplain, hcalm⟩ : s.Unscathed ∧ s.PlainlyAsked ∧ s.disk.Calm := stored_once 250 _
  have hsteady : s.Steady := steady_of_any hcalm (by decide +kernel)
  have hanswer : ((Question.tagsByScopesAndKind ["a", "b", "a"] ["k"]).tags.run s).1 = [⟨1, tag⟩, ⟨1, tag⟩] := by
    decide +kernel
  refine ⟨by decide +kernel, ?_, ?_, ?_⟩
  · exact (rows_answered_as_listed hu.reachable (.tagsByScopesAndKind ["a", "b", "a"] ["k"])
      ⟨hplain.fresh, .inl hsteady⟩).1 ⟨1, tag⟩ (hanswer ▸ List.mem_cons_self)
  · refine (rows_answered_as_listed hu.reachable (.tagsByScopesAndKind ["b", "a"] ["k"])
      ⟨hplain.fresh, .inl hsteady⟩).2 ?_
    exact fun r => List.nodup_iff_count_le_one.mp (by decide) _
  · exact (rows_answered_as_listed hu.reachable (.tagsByScopesAndName ["a", globalScope, "a"] "x" false)
      ⟨hplain.fresh, fun _ => hu⟩).2 fun _ => Nat.le_refl 1

end Store
end TagIndex
