import TagIndex.Proofs.AcceptedLines
import TagIndex.Proofs.Importing
import TagIndex.Proofs.Patterns
import TagIndex.Proofs.Uncut

/-!
# Options that select

A query prints tags of the database that its options admit. A lookup knows only some of the options that can be
given together; what it does not know is not heeded.
-/

namespace TagIndex

open Lookup Store Query

/-! ## What options admit -/

theorem forall_mem_none {α : Type} {p : α → Prop} : ∀ a ∈ (none : Option α), p a :=
  fun a h => absurd h (Option.not_mem_none a)

theorem forall_mem_some {α : Type} {p : α → Prop} {a : α} (h : p a) : ∀ b ∈ some a, p b :=
  fun _ hb => Option.mem_some_iff.mp hb ▸ h

namespace TagQuery

/-- The tag has the name, or one that starts with it. -/
def AdmitsName (name : String) (exact : Bool) (t : Tag) : Prop :=
  if exact then t.name = name else Text.Begins name t.name

/-- The tag has one of the kinds, if there are any. -/
def AdmitsKind (kinds : List String) (t : Tag) : Prop := kinds = [] ∨ t.kind ∈ kinds

/-- The empty text stands for the global scope. -/
def AdmitsScope (scopes : List String) (t : Tag) : Prop :=
  t.scope ∈ scopes ∨ "" ∈ scopes ∧ t.scope = globalScope

/-- What the arguments and options of a query say of a tag. -/
def Admits : TagQuery → Tag → Prop
  | name n exact contains parent, t =>
    (if contains then Text.Occurs n t.name else Text.Begins n t.name) ∧ (exact → t.name = n) ∧
      ∀ p ∈ parent, t.parent = p
  | scope scopes n exact kinds, t =>
    AdmitsScope scopes t ∧ (∀ m ∈ n, AdmitsName m exact t) ∧ AdmitsKind kinds t
  | file f line kinds visible, t =>
    t.file = f ∧ (∀ l ∈ line, t.line = l) ∧ AdmitsKind kinds t ∧ ∀ start ∈ visible, Text.Begins start t.name
  | kind kinds _, t => t.kind ∈ kinds
  | path p kinds parts, t =>
    (if parts then ∀ part ∈ pathSegments p, Text.Occurs part t.path else t.path = p) ∧ AdmitsKind kinds t
  | enclosing f line, t => t.file = f ∧ t.line ≤ line
  | params function, t => t.kind = Kind.parameter ∧ t.scope = function

/-- The query without the options that its lookup does not know: `exact` where kinds are given for one scope, and
kinds where a line is given, or parts of a path. -/
def heeded : TagQuery → TagQuery
  | scope [s] (some n) _ (k :: ks) => scope [s] (some n) false (k :: ks)
  | file f (some line) _ none => file f (some line) [] none
  | path p _ true => path p [] true
  | q => q

theorem rows_heeded (q : TagQuery) : q.heeded.rows = q.rows := by
  unfold heeded
  split
  · simp only [rows, byScopes, List.isEmpty_cons, Bool.false_eq_true, if_false]
  · rfl
  · simp only [rows, byPath, if_true]
  · rfl

/-- The query looks for names in the projection of the global scope. -/
def ReadsProjection : TagQuery → Prop
  | scope scopes (some _) _ [] => scopes = [""] ∨ globalScope ∈ scopes
  | _ => False

end TagQuery

/-! ## Rows of a disk -/

namespace Disk

variable {d : Disk} {db db' : Database}

/-- The tables are those of some place of the disk, or they are blank. -/
def Shows (d : Disk) (db : Database) : Prop := db.IsBlank ∨ ∃ p, (d.tables p).SameTables db

theorem Shows.congr (h : d.Shows db) (hs : db.SameTables db') : d.Shows db' :=
  h.imp (fun hb => Database.SameTables.trans hb hs) fun ⟨p, hp⟩ => ⟨p, hp.trans hs⟩

/-- The row is stored somewhere on the disk. -/
def Stores (d : Disk) (r : Row) : Prop := ∃ p, r ∈ (d.tables p).tags

end Disk

namespace Store

variable {d : Disk} {kinds kinds' : List String} {s t : Store} {P P' : Tag → Prop} {q : Query} {limit : Nat}

/-- The session sees only what the disk shows, and its kept answers come from there and are filtered by the given kinds
or not at all. -/
structure Browses (d : Disk) (kinds : List String) (s : Store) : Prop where
  tables : ∀ p, PlaceState.All d.Shows (s.stateAt p)
  kept : s.KeepsFrom (fun kinds' => kinds' = [] ∨ kinds' = kinds) d.Shows

theorem Browses.reads (h : s.Browses d kinds) (hr : Reads s t)
    (hk : t.KeepsFrom (fun kinds' => kinds' = [] ∨ kinds' = kinds) d.Shows) : t.Browses d kinds where
  tables p := by
    rcases (h.tables p).reads (fun _ _ hs hd => hd.congr hs) (hr p) with h | ⟨_, h⟩
    · exact h
    · exact ⟨.inl h.1, fun db hdb => .inl (h.2 db hdb)⟩
  kept := hk

theorem Browses.shows_database (h : s.Browses d kinds) : d.Shows s.database :=
  PlaceState.All.database (.inl (.refl {})) h.tables

/-- The rows are stored, and their tags satisfy `P`. -/
def Chosen (d : Disk) (P : Tag → Prop) (rows : List Row) : Prop := ∀ r ∈ rows, d.Stores r ∧ P r.tag

theorem chosen_nil : Chosen d P [] := List.forall_mem_nil _

theorem Chosen.append {rows rows' : List Row} (h : Chosen d P rows) (h' : Chosen d P rows') :
    Chosen d P (rows ++ rows') := fun r hr => (List.mem_append.mp hr).elim (h r) (h' r)

theorem Chosen.imp {rows : List Row} (h : Chosen d P rows) (hp : ∀ t, P t → P' t) : Chosen d P' rows :=
  fun r hr => (h r hr).imp_right (hp _)

/-- The lookup answers stored rows whose tags satisfy `P`. -/
def Selects (d : Disk) (kinds : List String) (P : Tag → Prop) (l : Lookup (List Row)) : Prop :=
  Meets (Browses d kinds) l (Chosen d P)

theorem selects_nil : Selects d kinds P (pure []) := .pure chosen_nil

theorem Selects.imp {l : Lookup (List Row)} (h : Selects d kinds P l) (hp : ∀ t, P t → P' t) : Selects d kinds P' l :=
  Meets.imp h fun _ hrows => hrows.imp hp

theorem selects_unless {p : Prop} [Decidable p] {l : Lookup (List Row)} (h : ¬ p → Selects d kinds P l) :
    Selects d kinds P (if p then pure [] else l) := by
  split
  · exact selects_nil
  · exact h ‹_›

theorem selects_limited {l : Nat → Lookup (List Row)} (h : ∀ limit, Selects d kinds P (l limit)) :
    Selects d kinds P (searchLimit >>= l) :=
  Meets.bind (P := fun _ => True) (.read fun _ _ => trivial) fun limit _ => h limit

theorem meets_nameTest (name : String) (isPartial : Bool) : Meets (Browses d kinds) (nameTest name isPartial)
    fun test => ∃ caseSensitive, test = .forName name isPartial caseSensitive :=
  .read fun s _ => ⟨s.options.caseSensitive, rfl⟩

theorem told_of_eq_or_nil (hk : kinds' = [] ∨ kinds' = kinds) : Told (fun k => k = [] ∨ k = kinds) kinds' := by
  rintro k (rfl | rfl) htext
  · exact (kindsText_eq_empty htext.symm).symm
  · rcases hk with rfl | rfl
    · exact kindsText_eq_empty htext
    · rfl

/-- A query selects what it accepts on the tables of the disk. -/
theorem selects_fetchKinds (hk : kinds' = [] ∨ kinds' = kinds)
    (hP : ∀ p, ∀ r ∈ (d.tables p).tags, q.accepts (d.tables p) r → kinds' = [] ∨ r.tag.kind ∈ kinds' → P r.tag) :
    Selects d kinds P (fetchKinds q kinds') := by
  refine fun s h => ⟨h.reads (s.fetchKinds_reads q kinds') (h.kept.fetchKinds h.shows_database hk q), fun r hr => ?_⟩
  have hfound : ∃ db, d.Shows db ∧ r ∈ found q kinds' db := by
    rcases h.kept.fetchKinds_found (told_of_eq_or_nil hk) q with hnone | ⟨db, hd, hfound⟩ | ⟨hfound, _⟩
    · rw [hnone] at hr
      cases hr
    · exact ⟨db, hd, hfound ▸ hr⟩
    · exact ⟨s.database, h.shows_database, hfound ▸ hr⟩
  obtain ⟨db, hshows, hr⟩ := hfound
  obtain ⟨hmem, haccepts⟩ := mem_found hr
  rcases hshows with hblank | ⟨p, hp⟩
  · rw [hblank.tags] at hmem
    cases hmem
  · rw [hp.tags] at hmem
    rw [accepts_congr hp.globals] at haccepts
    exact ⟨⟨p, hmem⟩, hP p r hmem haccepts (kind_of_mem_found hr)⟩

theorem selects_fetch (hP : ∀ p, ∀ r ∈ (d.tables p).tags, q.accepts (d.tables p) r → P r.tag) :
    Selects d kinds P (fetch q) :=
  selects_fetchKinds (.inl rfl) fun p r hr ha _ => hP p r hr ha

/-! ## Names and scopes -/

theorem admitsName_of_matches {name : String} {isPartial caseSensitive : Bool} {t : Tag}
    (h : (Test.forName name isPartial caseSensitive).holds t.name) : TagQuery.AdmitsName name (!isPartial) t := by
  have hmatches := Test.holds_forName.mp h
  unfold Test.Matches at hmatches
  unfold TagQuery.AdmitsName
  split at hmatches
  · rwa [if_pos ‹_›]
  rw [if_neg ‹_›]
  split at hmatches
  · exact Text.begins_of_starts hmatches
  · exact hmatches

/-- Names of the global scope are looked for in the projection, which has to be right for that. -/
theorem selects_tagsByScopeAndName {scope : String}
    (hp : scope = "" ∨ scope = globalScope → ∀ p, (d.tables p).Sound ∧ (d.tables p).Projected) (name : String)
    (isPartial : Bool) : Selects d kinds
      (fun t => t.scope = (if scope = "" then globalScope else scope) ∧ TagQuery.AdmitsName name (!isPartial) t)
      (tagsByScopeAndName scope name isPartial) := by
  refine selects_unless fun _ => (meets_nameTest name isPartial).bind ?_
  rintro _ ⟨caseSensitive, rfl⟩
  refine selects_limited fun limit => selects_fetch fun p r hr ha => ?_
  exact ((accepts_byScopeAndName (fun hscope => hp hscope p) hr).mp ha).imp_right admitsName_of_matches

theorem selects_joinNamed {scopes : List String} {name : String} {isPartial : Bool} {global : List Row}
    (hP : ∀ t : Tag, t.scope ∈ scopes → TagQuery.AdmitsName name (!isPartial) t → P t) (hglobal : Chosen d P global) :
    Selects d kinds P (joinNamed limit scopes name isPartial global) := by
  have hmerge : ∀ {nested}, Chosen d P nested → Selects d kinds P (pure (mergeScopes limit nested scopes [] global [])) :=
    fun hnested => .pure fun r hr => (mem_mergeScopes hr).elim (chosen_nil r) fun hr => hr.elim (hglobal r) (hnested r)
  refine .ite (.pure_bind (hmerge chosen_nil)) ((meets_nameTest name isPartial).bind ?_)
  rintro _ ⟨caseSensitive, rfl⟩
  refine Meets.bind (P := Chosen d P) (selects_fetch fun p r _ ha => ?_) fun nested => hmerge
  obtain ⟨hlisted, hname⟩ := byScopesAndName_accepts.mp ha
  exact hP r.tag (mem_namedScopes.mp hlisted).1 (admitsName_of_matches hname)

theorem selects_tagsByScopesAndName {scopes : List String}
    (hp : globalScope ∈ scopes → ∀ p, (d.tables p).Sound ∧ (d.tables p).Projected) (name : String) (isPartial : Bool) :
    Selects d kinds (fun t => t.scope ∈ scopes ∧ TagQuery.AdmitsName name (!isPartial) t)
      (tagsByScopesAndName scopes name isPartial) := by
  rw [tagsByScopesAndName_eq]
  refine selects_unless fun _ => selects_limited fun limit => ?_
  split
  · have hm : globalScope ∈ scopes := List.contains_iff_mem.mp ‹_›
    refine Meets.bind ((selects_tagsByScopeAndName (fun _ => hp hm) name isPartial).imp fun t h => ?_) fun global =>
      selects_joinNamed fun _ => .intro
    exact ⟨h.1 ▸ hm, h.2⟩
  · exact selects_joinNamed (fun _ => .intro) chosen_nil

/-! ## Kinds and scopes -/

theorem selects_tagsOfScopes {tags : List Row} (ht : Chosen d P tags) {scopes : List String}
    (hP : ∀ t : Tag, t.scope ∈ scopes → TagQuery.AdmitsKind kinds t → P t) :
    Selects d kinds P (tagsOfScopes limit kinds scopes tags) := by
  induction scopes generalizing tags with
  | nil => exact .pure ht
  | cons scope scopes ih =>
      refine Meets.bind (P := Chosen d P) (selects_fetchKinds (.inr rfl) fun p r _ ha hkind => ?_) fun found hfound => ?_
      · have hscope : r.tag.scope = scope := by
          simpa [accepts, byScope, Condition.holds, Test.holds, TextColumn.of] using ha
        exact hP r.tag (hscope ▸ List.mem_cons_self) hkind
      · exact .ite (.pure (ht.append hfound)) (ih (ht.append hfound) fun t hm => hP t (List.mem_cons_of_mem _ hm))

theorem selects_tagsByScopesAndKind {scopes : List String} :
    Selects d kinds (fun t => t.scope ∈ scopes ∧ TagQuery.AdmitsKind kinds t) (tagsByScopesAndKind scopes kinds) :=
  selects_unless fun _ => selects_limited fun _ => selects_tagsOfScopes chosen_nil fun _ => .intro

theorem selects_tagsByScope {scope : String} : Selects d kinds (fun t => t.scope = scope) (tagsByScope scope) :=
  selects_limited fun _ => selects_fetch fun p r _ ha => by
    simpa [accepts, byScope, Condition.holds, Test.holds, TextColumn.of] using ha

theorem selects_tagsOfEach {scopes : List String} :
    Selects d kinds (fun t => t.scope ∈ scopes) (TagQuery.tagsOfEach scopes) := by
  induction scopes with
  | nil => exact selects_nil
  | cons scope scopes ih =>
      refine Meets.bind selects_tagsByScope fun rows hrows => Meets.bind ih fun rest hrest => .pure ?_
      exact (hrows.imp fun t ht => ht ▸ List.mem_cons_self).append (hrest.imp fun t => List.mem_cons_of_mem _)

/-! ## Queries -/

section Queries

variable {scopes : List String} {exact : Bool}

theorem selects_byScopes_unnamed : Selects d kinds (TagQuery.scope scopes none exact kinds).Admits
    (TagQuery.byScopes scopes none exact kinds) := by
  have hadmits : ∀ t : Tag, t.scope ∈ scopes → TagQuery.AdmitsKind kinds t →
      (TagQuery.scope scopes none exact kinds).Admits t := fun t hscope hkind => ⟨.inl hscope, forall_mem_none, hkind⟩
  have hkinds : Selects d kinds (TagQuery.scope scopes none exact kinds).Admits (tagsByScopesAndKind scopes kinds) :=
    selects_tagsByScopesAndKind.imp fun t h => hadmits t h.1 h.2
  have hany : kinds.isEmpty → ∀ t, TagQuery.AdmitsKind kinds t := fun hnone t => .inl (List.isEmpty_iff.mp hnone)
  unfold TagQuery.byScopes
  split
  · exact nomatch ‹none = some _›
  · exact nomatch ‹none = some _›
  · rename_i scope _
    split
    · exact selects_tagsByScope.imp fun t hscope => hadmits t (List.mem_singleton.mpr hscope) (hany ‹_› t)
    · exact hkinds
  · split
    · refine Meets.bind selects_tagsOfEach fun rows hrows => selects_limited fun limit => .pure fun r hr => ?_
      exact (hrows r (List.mem_of_mem_take hr)).imp_right fun hscope => hadmits r.tag hscope (hany ‹_› _)
    · exact hkinds

theorem selects_tagsByScopeAndKind {scope filter : String} :
    Selects d kinds (fun t => t.scope = scope ∧ Text.Begins filter t.name ∧ t.kind ∈ kinds)
      (tagsByScopeAndKind scope kinds filter) :=
  selects_unless fun _ => selects_limited fun _ => selects_fetch fun _ _ _ => accepts_byScopeAndKind.mp

theorem selects_byScopes_one {scope name : String}
    (hp : kinds = [] → scope = "" ∨ scope = globalScope → ∀ p, (d.tables p).Sound ∧ (d.tables p).Projected) :
    Selects d kinds (TagQuery.scope [scope] (some name) exact kinds).heeded.Admits
      (TagQuery.byScopes [scope] (some name) exact kinds) := by
  cases kinds with
  | nil =>
      refine (selects_tagsByScopeAndName (hp rfl) name (!exact)).imp ?_
      rintro t ⟨hscope, hname⟩
      rw [Bool.not_not] at hname
      refine ⟨?_, forall_mem_some hname, .inl rfl⟩
      split at hscope
      · exact .inr ⟨‹scope = ""› ▸ List.mem_cons_self, hscope⟩
      · exact .inl (List.mem_singleton.mpr hscope)
  | cons k ks =>
      refine selects_tagsByScopeAndKind.imp ?_
      rintro t ⟨hscope, hname, hkind⟩
      exact ⟨.inl (List.mem_singleton.mpr hscope), forall_mem_some hname, .inr hkind⟩

/-- Together with kinds, a name for several scopes is refused. -/
theorem selects_byScopes_several {name : String} (hseveral : ∀ scope, scopes ≠ [scope])
    (hr : (TagQuery.scope scopes (some name) exact kinds).refusal? = none)
    (hp : kinds = [] → globalScope ∈ scopes → ∀ p, (d.tables p).Sound ∧ (d.tables p).Projected) :
    Selects d kinds (TagQuery.scope scopes (some name) exact kinds).heeded.Admits
      (TagQuery.byScopes scopes (some name) exact kinds) := by
  obtain ⟨hrows, hheeded, rfl⟩ : TagQuery.byScopes scopes (some name) exact kinds =
      tagsByScopesAndName scopes name (!exact) ∧ (TagQuery.scope scopes (some name) exact kinds).heeded =
        .scope scopes (some name) exact kinds ∧ kinds = [] := by
    rcases scopes with _ | ⟨scope, _ | ⟨other, rest⟩⟩
    · exact ⟨rfl, rfl, by simpa [TagQuery.refusal?] using hr⟩
    · exact absurd rfl (hseveral scope)
    · exact ⟨rfl, rfl, by simpa [TagQuery.refusal?] using hr⟩
  rw [hrows, hheeded]
  refine (selects_tagsByScopesAndName (hp rfl) name (!exact)).imp ?_
  rintro t ⟨hscope, hname⟩
  rw [Bool.not_not] at hname
  exact ⟨.inl hscope, forall_mem_some hname, .inl rfl⟩

theorem selects_fileScopedTags (file start : String) : Selects d kinds
    (fun t => t.file = file ∧ Text.Begins start t.name) (fileScopedTags file start []) := by
  have hfetch : ∀ {q : Query} {c : Condition}, q.conditions = [.column .file (.is file), c] ++ nameFilter start →
      Selects d kinds (fun t => t.file = file ∧ Text.Begins start t.name) (fetch q) := by
    refine fun hq => selects_fetch fun p r _ ha => ?_
    rw [accepts, hq, List.all_eq_true, List.forall_mem_append, List.forall_mem_cons] at ha
    exact ⟨of_decide_eq_true ha.1.1, holds_nameFilter.mp ha.2⟩
  refine selects_unless fun _ => selects_limited fun limit => ?_
  refine Meets.bind (hfetch rfl) fun anonymous ha => selects_limited fun limit => ?_
  refine Meets.bind (hfetch rfl) fun members hm => .pure fun r hr => ?_
  exact ha.append hm r (mem_of_mem_distinctRows (List.mem_mergeSort.mp hr))

theorem selects_byFile {file : String} {line : Option Int} {visible : Option String}
    (hq : (TagQuery.file file line kinds visible).IsCompatible) :
    Selects d kinds (TagQuery.file file line kinds visible).heeded.Admits
      (TagQuery.byFile file line kinds visible) := by
  cases visible with
  | some start =>
      obtain ⟨rfl, rfl⟩ := hq
      refine (selects_fileScopedTags file start).imp ?_
      rintro t ⟨hfile, hname⟩
      exact ⟨hfile, forall_mem_none, .inl rfl, forall_mem_some hname⟩
  | none =>
      cases line with
      | some line =>
          refine selects_limited fun limit => selects_fetch fun p r _ ha => ?_
          have hholds : r.tag.file = file ∧ r.tag.line = line := by
            simpa [accepts, byFileAndLine, Condition.holds, Test.holds, TextColumn.of] using ha
          exact ⟨hholds.1, forall_mem_some hholds.2, .inl rfl, forall_mem_none⟩
      | none =>
          simp only [TagQuery.byFile]
          split
          · rename_i hnone
            refine selects_limited fun limit => selects_fetch fun p r _ ha => ?_
            have hfile : r.tag.file = file := by
              simpa [accepts, Query.byFile, Condition.holds, Test.holds, TextColumn.of] using ha
            exact ⟨hfile, forall_mem_none, .inl (List.isEmpty_iff.mp hnone), forall_mem_none⟩
          · refine selects_unless fun _ => selects_limited fun limit => selects_fetch fun p r _ ha => ?_
            have hholds : r.tag.file = file ∧ r.tag.kind ∈ kinds := by
              simpa [accepts, byKindAndFile, Condition.holds, Test.holds, TextColumn.of] using ha
            exact ⟨hholds.1, forall_mem_none, .inr hholds.2, forall_mem_none⟩

theorem selects_byPath {path : String} {parts : Bool} : Selects d kinds
    (TagQuery.path path kinds parts).heeded.Admits (TagQuery.byPath path kinds parts) := by
  cases parts with
  | true =>
      refine selects_unless fun _ => selects_limited fun limit => selects_fetch fun p r _ ha => ?_
      have hholds : ∀ part ∈ TagQuery.pathSegments path,
          Text.matchesPattern (some Text.escapeMark) (Text.containing part) r.tag.path := by
        simpa [accepts, byPathParts, Condition.holds, Test.holds, TextColumn.of] using ha
      exact ⟨fun part hm => Text.matchesPattern_containing.mp (hholds part hm), .inl rfl⟩
  | false =>
      simp only [TagQuery.byPath, Bool.false_eq_true, if_false]
      split
      · rename_i hnone
        refine selects_unless fun _ => selects_limited fun limit => selects_fetch fun p r _ ha => ?_
        have hpath : r.tag.path = path := by
          simpa [accepts, byPaths, Condition.holds, Test.holds, TextColumn.of] using ha
        exact ⟨hpath, .inl (List.isEmpty_iff.mp hnone)⟩
      · rename_i hsome
        refine selects_limited fun most => selects_unless fun _ => selects_limited fun limit =>
          selects_fetch fun p r _ ha => ?_
        have hholds : r.tag.path = path ∧ r.tag.kind ∈ kinds := by
          simpa [accepts, byPathAndKind, hsome, Condition.holds, Test.holds, TextColumn.of] using ha
        exact ⟨hholds.1, .inr hholds.2⟩

theorem selects_scopeAt {file : String} {line : Int} : Meets (Browses d kinds) (scopeAt file line) fun found =>
    Chosen d (TagQuery.enclosing file line).Admits found.toList := by
  refine .ite (.pure chosen_nil) (Meets.bind (P := Chosen d (TagQuery.enclosing file line).Admits)
    (selects_fetch fun p r _ ha => ?_) fun rows hrows => .pure fun r hr => ?_)
  · have hholds : r.tag.file = file ∧ r.tag.line ≤ line := by
      simp only [accepts, Query.scopeAt, List.all_cons, Bool.and_eq_true] at ha
      exact ⟨of_decide_eq_true ha.1, of_decide_eq_true ha.2.1⟩
    exact hholds
  · exact hrows r (List.mem_of_mem_head? (by simpa using hr))

theorem selects_named {name : String} {contains : Bool} {parent : Option String}
    (hq : (TagQuery.name name exact contains parent).IsCompatible) : Selects d kinds
    (TagQuery.name name exact contains parent).Admits (TagQuery.name name exact contains parent).rows := by
  cases parent with
  | some parent =>
      refine selects_unless fun _ => selects_limited fun limit => Meets.bind
        (P := Chosen d fun t => t.name = name) (selects_fetch fun p r _ ha => ?_) fun rows hrows => .pure fun r hr => ?_
      · simpa [accepts, byName, Condition.holds, Test.holds, TextColumn.of] using ha
      · obtain ⟨hr, hparent⟩ := List.mem_filter.mp hr
        obtain ⟨hstored, rfl⟩ := hrows r hr
        have hbegins : Text.Begins r.tag.name r.tag.name := Text.begins_of_starts List.prefix_rfl
        refine ⟨hstored, ?_, fun _ => rfl, forall_mem_some (of_decide_eq_true hparent)⟩
        split
        · exact hbegins.occurs
        · exact hbegins
  | none =>
      cases contains with
      | true =>
          refine selects_unless fun _ => selects_limited fun limit => selects_fetch fun p r _ ha => ?_
          have hoccurs : Text.Occurs name r.tag.name := by
            simpa [accepts, byName, Condition.holds, Test.holds, TextColumn.of, Text.matchesPattern_containing] using ha
          exact ⟨hoccurs, fun hexact => absurd (hq hexact) (by decide), forall_mem_none⟩
      | false =>
          refine selects_unless fun _ => (meets_nameTest name (!exact)).bind ?_
          rintro _ ⟨caseSensitive, rfl⟩
          refine selects_limited fun limit => selects_fetch fun p r _ ha => ?_
          have hname : TagQuery.AdmitsName name exact r.tag := by
            have hholds : (Test.forName name (!exact) caseSensitive).holds r.tag.name := by
              simpa [accepts, byName, Condition.holds, TextColumn.of] using ha
            simpa using admitsName_of_matches hholds
          cases exact with
          | true =>
              obtain rfl : r.tag.name = name := hname
              exact ⟨Text.begins_of_starts List.prefix_rfl, fun _ => rfl, forall_mem_none⟩
          | false => exact ⟨hname, fun hexact => absurd hexact Bool.false_ne_true, forall_mem_none⟩

theorem selects_rows {q : TagQuery} (hq : q.IsCompatible) (hr : q.refusal? = none)
    (hp : q.ReadsProjection → ∀ p, (d.tables p).Sound ∧ (d.tables p).Projected) :
    ∃ kinds, Selects d kinds q.heeded.Admits q.rows := by
  cases q with
  | name n exact contains parent => exact ⟨[], selects_named hq⟩
  | scope scopes name exact kinds =>
      refine ⟨kinds, ?_⟩
      cases name with
      | none =>
          have hheeded : (TagQuery.scope scopes none exact kinds).heeded = .scope scopes none exact kinds := by
            rcases scopes with _ | ⟨_, _ | _⟩ <;> rfl
          rw [hheeded]
          exact selects_byScopes_unnamed
      | some name =>
          by_cases hone : ∃ scope, scopes = [scope]
          · obtain ⟨scope, rfl⟩ := hone
            refine selects_byScopes_one ?_
            rintro rfl (rfl | rfl)
            · exact hp (.inl rfl)
            · exact hp (.inr List.mem_cons_self)
          · refine selects_byScopes_several (fun scope he => hone ⟨scope, he⟩) hr ?_
            rintro rfl hm
            exact hp (.inr hm)
  | file f line kinds visible => exact ⟨kinds, selects_byFile hq⟩
  | kind kinds sorting =>
      refine ⟨[], selects_unless fun _ => selects_limited fun limit => selects_fetch fun p r _ ha => ?_⟩
      simpa [TagQuery.heeded, TagQuery.Admits, accepts, byKind, Condition.holds, Test.holds, TextColumn.of] using ha
  | path path kinds parts => exact ⟨kinds, selects_byPath⟩
  | enclosing f line => exact ⟨[], selects_scopeAt.bind fun found hfound => .pure hfound⟩
  | params function =>
      refine ⟨[], selects_limited fun limit => selects_fetch fun p r _ ha => ?_⟩
      simpa [TagQuery.heeded, TagQuery.Admits, accepts, byKindAndScope, Condition.holds, Test.holds, TextColumn.of] using ha

end Queries

end Store

/-! ## From the command line -/

namespace Invocation

variable {i : Invocation} {env : Environment} {user : Option String} {d d' : Disk} {s : Store} {q : TagQuery}

/-- A session that begins with opening a database sees only what the disk shows, and has kept no answers. -/
theorem openStore_browses (h : i.openStore env user d = (.ok s, d')) (kinds : List String) : s.Browses d kinds := by
  obtain ⟨options, path, hopen⟩ := openStore_openPath h
  have hnew : Browses d kinds { disk := d, options } := by
    refine ⟨fun p => ?_, .of_empty rfl⟩
    rw [stateAt_of_none rfl]
    exact ⟨.inr ⟨p, .refl _⟩, nofun⟩
  have hopened : Browses d kinds (Store.openPath { disk := d, options } path).2 :=
    hnew.reads (Store.openPath_reads _ path) (hnew.kept.remains (Store.openPath_remains _ path))
  rwa [hopen] at hopened

/-- Opening comes before everything that a query can fail of. -/
theorem run_tags_failed {f : Failure} (hq : i.command = .tags q) (h : i.openStore env user d = (.error f, d'))
    (now : Int) : (i.run env user now d).1 = .failed f := by
  simp only [Invocation.run, hq]
  rw [runOpened, h]

theorem run_tags (hq : i.command = .tags q) (h : i.openStore env user d = (.ok s, d')) (now : Int) :
    (i.run env user now d).1 =
      (q.refusal?.map Report.failed).getD (.printed (Output.tags i.format (q.rows.run s).1)) := by
  simp only [Invocation.run, hq]
  rw [runOpened, h]
  simp only [hq, Command.runOn, Command.listTags]
  cases q.refusal? <;> rfl

/-- A query of an accepted line prints stored tags that its options admit, but for those that are not heeded: they
do not change what is printed. It fails if its database cannot be opened, or if a name is looked for in several
scopes together with kinds. -/
theorem prints_admitted_tags {texts : List String} (hline : Command.ofLine texts = .ok i) (hq : i.command = .tags q)
    (env : Environment) (user : Option String) (now : Int) (d : Disk)
    (hp : q.ReadsProjection → ∀ p, (d.tables p).Sound ∧ (d.tables p).Projected) :
    let report := (i.run env user now d).1
    q.heeded.rows = q.rows ∧
    (∀ f d', i.openStore env user d = (.error f, d') → report = .failed f) ∧
    ∀ s d', i.openStore env user d = (.ok s, d') →
      (∀ f, q.refusal? = some f → report = .failed f) ∧
      (q.refusal? = none → report = .printed (Output.tags i.format (q.rows.run s).1) ∧
        ∀ r ∈ (q.rows.run s).1, d.Stores r ∧ q.heeded.Admits r.tag) := by
  intro report
  refine ⟨q.rows_heeded, fun f d' ho => run_tags_failed hq ho now, fun s d' ho => ⟨fun f hf => ?_, fun hr => ⟨?_, ?_⟩⟩⟩
  · exact (run_tags hq ho now).trans (by rw [hf]; rfl)
  · exact (run_tags hq ho now).trans (by rw [hr]; rfl)
  · obtain ⟨kinds, hselects⟩ := selects_rows (Command.isCompatible_of_line hline hq) hr hp
    exact (hselects s (openStore_browses ho kinds)).2

/-- A name is looked for in the global scope. With kinds, `--exact` is not heeded: a longer name is printed. -/
theorem prints_admitted_tags_of_scopes :
    let tag (name scope : String) : Tag := { name, file := "a.c", kind := "function", path := name, scope }
    let tags := [tag "foo" globalScope, tag "fox" "ns"]
    let d := (Step.act (Step.act {} (.openPath "tags.db")) (.storeTags tags 0 true)).disk
    let i (q : TagQuery) : Invocation := { command := .tags q, database := some "tags.db" }
    let named := TagQuery.scope [globalScope] (some "FO") false []
    let exact := TagQuery.scope ["ns"] (some "fo") true ["function"]
    Command.ofLine ["--db", "tags.db", "query", "scope", "<global>", "--name", "FO"] = .ok (i named) ∧
    ((i named).run {} none 0 d).1 = .printed (Output.tags .auto [⟨1, tag "foo" globalScope⟩]) ∧
    named.Admits (tag "foo" globalScope) ∧
    Command.ofLine ["--db", "tags.db", "query", "scope", "ns", "--name", "fo", "--exact", "--kind", "function"] =
      .ok (i exact) ∧
    ((i exact).run {} none 0 d).1 = .printed (Output.tags .auto [⟨2, tag "fox" "ns"⟩]) ∧
    exact.heeded.Admits (tag "fox" "ns") ∧ ¬ exact.Admits (tag "fox" "ns") := by
  intro tag tags d i named exact
  have hu : Unscathed (Step.act (Step.act {} (.openPath "tags.db")) (.storeTags tags 0 true)) :=
    .next (.storeTags tags 0 true) (.next (.openPath "tags.db") (.new ⟨rfl, rfl, rfl⟩ fun _ => .refl _) trivial id) trivial id
  have hp : ∀ p, (d.tables p).Sound ∧ (d.tables p).Projected := hu.projected_tables
  let opened (q : TagQuery) : Store := ((i q).openStore {} none d).1.toOption.getD default
  have hquery : ∀ {q : TagQuery} {texts : List String} {rows : List Row}, Command.ofLine texts = .ok (i q) →
      ((i q).openStore {} none d).1.isOk → q.refusal? = none → (q.rows.run (opened q)).1 = rows →
      ((i q).run {} none 0 d).1 = .printed (Output.tags .auto rows) ∧ ∀ r ∈ rows, q.heeded.Admits r.tag := by
    rintro q texts _ hline hok hr rfl
    obtain ⟨_, _, hopened⟩ := prints_admitted_tags hline rfl {} none 0 d fun _ => hp
    obtain ⟨_, hprinted⟩ := hopened _ _ (openStore_of_isOk hok)
    exact ⟨(hprinted hr).1, fun r hm => ((hprinted hr).2 r hm).2⟩
  have hnamed : Command.ofLine ["--db", "tags.db", "query", "scope", "<global>", "--name", "FO"] = .ok (i named) := by
    decide +kernel
  have hexact : Command.ofLine ["--db", "tags.db", "query", "scope", "ns", "--name", "fo", "--exact", "--kind",
      "function"] = .ok (i exact) := by decide +kernel
  obtain ⟨hprinted, hadmits⟩ := hquery hnamed (by decide +kernel) rfl
    (show _ = [⟨1, tag "foo" globalScope⟩] by decide +kernel)
  obtain ⟨hprinted', hadmits'⟩ := hquery hexact (by decide +kernel) rfl
    (show _ = [⟨2, tag "fox" "ns"⟩] by decide +kernel)
  refine ⟨hnamed, hprinted, hadmits _ List.mem_cons_self, hexact, hprinted', hadmits' _ List.mem_cons_self, ?_⟩
  rintro ⟨_, hname, _⟩
  have hsame : "fox" = "fo" := hname "fo" rfl
  exact absurd hsame (by decide)

end Invocation
end TagIndex
