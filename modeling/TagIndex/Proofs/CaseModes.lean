import TagIndex.Proofs.OneScope
import TagIndex.Proofs.Repeats

/-!
# The case of letters

A session can be told to heed the case of letters in names. The partial lookups by name do so: what they answer starts
with the very text that was asked for. The lookups that filter the names of a scope by kinds, or those of a file,
compare by a pattern in any case, and answer in either mode the same.
-/

namespace TagIndex

open Lookup Store Query

variable {scope name filter file : String} {scopes kinds : List String} {limit : Nat} {r : Row} {on : Bool}

namespace Store

variable {α β : Type} {s : Store} {f : Database → Except Fault α}

/-! ## Lookups that do not read the mode -/

theorem heal_setCaseSensitive (s : Store) (on : Bool) (e : Fault) :
    (s.setCaseSensitive on).heal e = (s.heal e).setCaseSensitive on := by
  unfold heal
  split
  case isFalse => rfl
  cases hpath : s.path with
  | none =>
      have hpath' : (s.setCaseSensitive on).path = none := hpath
      simp only [reopen, hpath, hpath']
  | some path =>
      have hpath' : (s.setCaseSensitive on).path = some path := hpath
      have hconnect : (s.setCaseSensitive on).dropped.connect path =
          (s.dropped.connect path).map (·.setCaseSensitive on) := by
        have hdisk : (s.setCaseSensitive on).dropped.disk = s.dropped.disk := rfl
        unfold connect
        rw [hdisk]
        cases s.dropped.disk.connect path <;> rfl
      rw [reopen_of_path hpath, reopen_of_path hpath', hconnect]
      cases s.dropped.connect path <;> rfl

theorem perform_setCaseSensitive (s : Store) (on : Bool) (c : Connection) (w : Work α) :
    (s.setCaseSensitive on).perform c w = ((s.perform c w).1, (s.perform c w).2.setCaseSensitive on) := by
  have houtcome : (s.setCaseSensitive on).outcome c w = s.outcome c w := rfl
  have halone : (s.setCaseSensitive on).leavesAlone c w = s.leavesAlone c w := rfl
  rw [perform_eq, perform_eq, houtcome, halone]
  split
  · rfl
  split
  · rfl
  · cases c.transaction <;> rfl

theorem askDatabase_setCaseSensitive (f : Database → Except Fault α) (s : Store) (on : Bool) :
    (askDatabase f).run (s.setCaseSensitive on) =
      (((askDatabase f).run s).1, ((askDatabase f).run s).2.setCaseSensitive on) := by
  have hconnection : (s.setCaseSensitive on).connection = s.connection := rfl
  show askDatabase f (s.setCaseSensitive on) = ((askDatabase f s).1, (askDatabase f s).2.setCaseSensitive on)
  unfold askDatabase
  rw [hconnection]
  cases s.connection with
  | none => rfl
  | some c =>
      dsimp only
      rw [perform_setCaseSensitive]
      rcases s.perform c (Work.query f) with ⟨_ | _, t⟩
      · exact congrArg _ (heal_setCaseSensitive t on _)
      · rfl

/-- The lookup goes the same way in either mode. -/
def Blind (l : Lookup α) : Prop :=
  ∀ on, Pairs (fun s s' => s' = s.setCaseSensitive on) (fun s s' => s' = s.setCaseSensitive on) l l Eq

theorem Blind.pure {a : α} : Blind (pure a : Lookup α) := fun _ => Pairs.pure rfl

theorem Blind.bind {l : Lookup α} {f : α → Lookup β} (hl : Blind l) (hf : ∀ a, Blind (f a)) : Blind (l >>= f) :=
  fun on => (hl on).bind fun a _ ha => ha ▸ hf a on

theorem Blind.ite {p : Prop} [Decidable p] {l m : Lookup α} (hl : Blind l) (hm : Blind m) : Blind (if p then l else m) :=
  fun on => (hl on).ite (hm on)

theorem Blind.answer {l : Lookup α} (h : Blind l) (s : Store) (on : Bool) :
    (l.run (s.setCaseSensitive on)).1 = (l.run s).1 := (h on s _ rfl).2.symm

theorem blind_searchLimit : Blind searchLimit := fun _ _ _ h => ⟨h, h ▸ rfl⟩

/-- Only the mode of a name that is looked for in part matters. -/
theorem blind_nameTest (name : String) : Blind (nameTest name false) := fun _ _ _ h => ⟨h, rfl⟩

theorem blind_fetchKinds (q : Query) (kinds : List String) : Blind (fetchKinds q kinds) := by
  rintro on s _ rfl
  have hcache : (s.setCaseSensitive on).cache = s.cache := rfl
  have hoption : (s.setCaseSensitive on).options.useCache = s.options.useCache := rfl
  rw [fetchKinds_run, fetchKinds_run, hcache, hoption, askDatabase_setCaseSensitive]
  split
  · exact ⟨rfl, rfl⟩
  split
  · exact ⟨rfl, rfl⟩
  rcases (askDatabase q.run).run s with ⟨_ | rows, t⟩
  · exact ⟨rfl, rfl⟩
  · dsimp only
    split <;> exact ⟨rfl, rfl⟩

theorem blind_tagsOfScopes (limit : Nat) (kinds scopes : List String) (tags : List Row) :
    Blind (tagsOfScopes limit kinds scopes tags) := by
  induction scopes generalizing tags with
  | nil => exact .pure
  | cons scope scopes ih => exact (blind_fetchKinds _ _).bind fun found => .ite .pure (ih _)

theorem blind_fileScopedTags (file name : String) (kinds : List String) : Blind (fileScopedTags file name kinds) :=
  .ite .pure (blind_searchLimit.bind fun _ => (blind_fetchKinds _ _).bind fun _ => blind_searchLimit.bind fun _ =>
    (blind_fetchKinds _ _).bind fun _ => .pure)

theorem blind_tagsByScopesAndKind (scopes kinds : List String) : Blind (tagsByScopesAndKind scopes kinds) :=
  .ite .pure (blind_searchLimit.bind fun _ => blind_tagsOfScopes _ _ _ _)

theorem blind_tagsByScopesAndName (scopes : List String) (name : String) :
    Blind (tagsByScopesAndName scopes name false) := by
  have hjoin : ∀ limit global, Blind (joinNamed limit scopes name false global) := fun _ _ =>
    .ite .pure ((blind_nameTest name).bind fun _ => (blind_fetchKinds _ _).bind fun _ => .pure)
  rw [tagsByScopesAndName_eq]
  refine .ite .pure (blind_searchLimit.bind fun limit => .ite (.bind (.ite .pure ?_) (hjoin limit)) (hjoin limit []))
  exact (blind_nameTest name).bind fun _ => blind_searchLimit.bind fun _ => blind_fetchKinds _ _

end Store

/-! ## What lookups make of the start of a name -/

namespace Question

variable {question : Question} {s : Store} {text : String}

/-- The text that the names start with that a lookup asks for. -/
def start? : Question → Option String
  | fileScopedTags _ name _ => some name
  | tagsByScopeAndKind _ _ filter => some filter
  | tagsByScopeAndName _ name isPartial | tagsByScopesAndName _ name isPartial | tagsByName name isPartial =>
    if isPartial then some name else none
  | _ => none

/-- The lookup reads the mode. -/
def HeedsCase : Question → Prop
  | tagsByScopeAndName _ _ isPartial | tagsByScopesAndName _ _ isPartial | tagsByName _ isPartial => isPartial
  | _ => False

/-- Where names of the global scope are looked for, its projection has to tell them. -/
def NamesTold (s : Store) : Question → Prop
  | tagsByScopeAndName scope .. => scope = "" ∨ scope = globalScope → s.Unscathed
  | tagsByScopesAndName scopes .. => globalScope ∈ scopes → s.Unscathed
  | _ => True

theorem queries_blind (h : ¬ question.HeedsCase) (b b' : Bool) (limit : Nat) :
    question.queries b limit = question.queries b' limit := by
  have hwhole : ∀ {name isPartial}, ¬ isPartial = true → Test.forName name isPartial b = .forName name isPartial b' := by
    intro name isPartial hn
    rw [Bool.eq_false_iff.mpr hn]
    rfl
  cases question with
  | tagsByScopeAndName | tagsByScopesAndName | tagsByName => simp only [queries, hwhole h]
  | _ => rfl

theorem blind_answer (h : ¬ question.HeedsCase) (s : Store) (on : Bool) :
    (question.tags.run (s.setCaseSensitive on)).1 = (question.tags.run s).1 := by
  by_cases hone : question.AsksOnce
  · have hrows : ∀ asked, (s.setCaseSensitive on).rowsAsked asked = s.rowsAsked asked := fun asked =>
      congrArg asked.flatMap (funext fun a => (blind_fetchKinds a.1 a.2).answer s on)
    have hs : (question.tags.run s).1 = _ := gives_of_asksOnce hone s
    have hs' : (question.tags.run (s.setCaseSensitive on)).1 = _ := gives_of_asksOnce hone _
    rw [hs, hs', hrows, queries_blind h]
    rfl
  cases question with
  | fileScopedTags file name kinds => exact (blind_fileScopedTags file name kinds).answer s on
  | tagsByScopesAndKind scopes kinds => exact (blind_tagsByScopesAndKind scopes kinds).answer s on
  | tagsByScopesAndName scopes name isPartial =>
      obtain rfl : isPartial = false := Bool.eq_false_iff.mpr h
      exact (blind_tagsByScopesAndName scopes name).answer s on
  | _ => exact absurd trivial hone

end Question

/-! ## Lookups by the start of a name -/

namespace Store

variable {s : Store}

/-- All that the session may answer from, whether it was taken back or not, has `D`. -/
def Draws (D : Database → Prop) (o : Options) (s : Store) : Prop := s.DrawsFrom (fun _ => True) D ∧ s.options = o

section Draws

variable {D : Database → Prop} {o : Options} {isPartial : Bool} (hD : ∀ db db', db.SameTables db' → D db → D db') (h0 : D {})

include hD h0

theorem draws_fetchKinds (q : Query) (kinds : List String) :
    Meets (Draws D o) (fetchKinds q kinds) fun rows => ∀ r ∈ rows, ∃ db, D db ∧ r ∈ db.tags ∧ q.accepts db r :=
  fun s h => ⟨⟨h.1.fetchKinds hD h0 trivial q, (s.fetchKinds_options q kinds).trans h.2⟩,
    fun _ hr => h.1.kept.mem_fetchKinds (h.1.database h0) hr⟩

omit hD h0 in
theorem draws_limited {α : Type} {P : α → Prop} {l : Nat → Lookup α} (h : ∀ n, Meets (Draws D o) (l n) P) :
    Meets (Draws D o) (searchLimit >>= l) P :=
  Meets.bind (P := fun _ => True) (.read fun _ _ => trivial) fun n _ => h n

omit hD h0 in
theorem draws_named {α : Type} {P : α → Prop} {l : Test → Lookup α}
    (h : Meets (Draws D o) (l (.forName name isPartial o.caseSensitive)) P) :
    Meets (Draws D o) (nameTest name isPartial >>= l) P :=
  Meets.bind (P := (· = .forName name isPartial o.caseSensitive)) (.read fun _ hs => by rw [hs.2]) fun _ ht => ht ▸ h

theorem matches_tagsByName : Meets (Draws D o) (tagsByName name isPartial) fun rows =>
    ∀ r ∈ rows, Test.Matches name isPartial o.caseSensitive r.tag.name := by
  refine .ite (.pure (List.forall_mem_nil _)) (draws_named (draws_limited fun n => (draws_fetchKinds hD h0 _ []).imp ?_))
  intro rows hrows r hr
  obtain ⟨_, _, _, haccepts⟩ := hrows r hr
  rw [accepts, byName, List.all_cons, List.all_nil, Bool.and_true] at haccepts
  exact Test.holds_forName.mp haccepts

theorem matches_tagsByScopeAndName (hp : scope = "" ∨ scope = globalScope → ∀ db, D db → db.Sound ∧ db.Projected) :
    Meets (Draws D o) (tagsByScopeAndName scope name isPartial) fun rows =>
      ∀ r ∈ rows, Test.Matches name isPartial o.caseSensitive r.tag.name := by
  refine .ite (.pure (List.forall_mem_nil _)) (draws_named (draws_limited fun n => (draws_fetchKinds hD h0 _ []).imp ?_))
  intro rows hrows r hr
  obtain ⟨db, hdb, hmem, haccepts⟩ := hrows r hr
  exact Test.holds_forName.mp ((accepts_byScopeAndName (fun hscope => hp hscope db hdb) hmem).mp haccepts).2

theorem matches_tagsByScopesAndName (hp : globalScope ∈ scopes → ∀ db, D db → db.Sound ∧ db.Projected) :
    Meets (Draws D o) (tagsByScopesAndName scopes name isPartial) fun rows =>
      ∀ r ∈ rows, Test.Matches name isPartial o.caseSensitive r.tag.name := by
  have hjoin : ∀ limit {global}, (∀ r ∈ global, Test.Matches name isPartial o.caseSensitive r.tag.name) →
      Meets (Draws D o) (joinNamed limit scopes name isPartial global) fun rows =>
        ∀ r ∈ rows, Test.Matches name isPartial o.caseSensitive r.tag.name := by
    intro limit global hglobal
    refine .ite (.pure_bind (.pure fun r hr => ?_)) (draws_named ((draws_fetchKinds hD h0 _ []).bind fun nested hnested =>
      .pure fun r hr => ?_))
    · exact (mem_mergeScopes hr).elim (nomatch ·) fun hr => hr.elim (hglobal r) (nomatch ·)
    · refine (mem_mergeScopes hr).elim (nomatch ·) fun hr => hr.elim (hglobal r) fun hr => ?_
      obtain ⟨_, _, _, haccepts⟩ := hnested r hr
      exact Test.holds_forName.mp (byScopesAndName_accepts.mp haccepts).2
  rw [tagsByScopesAndName_eq]
  refine .ite (.pure (List.forall_mem_nil _)) (draws_limited fun limit => ?_)
  split
  · have hm : globalScope ∈ scopes := List.contains_iff_mem.mp ‹_›
    exact (matches_tagsByScopeAndName hD h0 fun _ => hp hm).bind fun global => hjoin limit
  · exact hjoin limit (List.forall_mem_nil _)

end Draws

/-! ## Filters of names -/

theorem isTooLarge_byScopeAndKind (hfew : kinds.length + 2 ≤ maxValues) :
    (byScopeAndKind scope kinds filter limit).isTooLarge = false := by
  have hmost : 1 + 1 + kinds.length ≤ maxValues := by omega
  have hsome : 1 + kinds.length ≤ maxValues := by omega
  unfold byScopeAndKind nameFilter
  split
  · simpa [isTooLarge, Condition.valueCount, Test.valueCount] using ⟨(by decide : 2 ≤ maxConditions), hsome⟩
  · simpa [isTooLarge, Condition.valueCount, Test.valueCount] using ⟨(by decide : 3 ≤ maxConditions), hmost⟩

theorem run_byScopeAndKind {db : Database} (hs : db.Sound)
    (hshort : (Text.startingWith filter).utf8ByteSize ≤ Text.maxPatternBytes) (hmax : limit ≤ maxLimit) :
    (byScopeAndKind scope kinds filter limit).run db = .ok ((db.tags.filter fun r =>
      r.tag.scope = scope ∧ Text.Begins filter r.tag.name ∧ r.tag.kind ∈ kinds).take limit) := by
  have hconditions : ∀ c ∈ (byScopeAndKind scope kinds filter limit).conditions, c.isTooLong = false := by
    simp only [byScopeAndKind, List.forall_mem_append, List.forall_mem_singleton]
    exact ⟨⟨rfl, isTooLong_nameFilter hshort⟩, rfl⟩
  -- The scope is looked up first, so the rows come by id, whatever their kinds.
  have hwalk : (byScopeAndKind scope kinds filter limit).walk = .byId := by
    simp [walk, tests, byScopeAndKind, nameFilter, Test.isOneOf, Test.isExact]
  rw [run_eq hmax hconditions, answers_of_unsorted hs hwalk rfl]
  refine congrArg _ (congrArg (List.take _) (List.filter_congr fun r _ => ?_))
  rw [Bool.eq_iff_iff, accepts_byScopeAndKind, decide_eq_true_iff]

theorem tagsByScopeAndKind_answered (h : s.Reachable) (hf : s.Fresh) (hfew : kinds.length + 2 ≤ maxValues)
    (hshort : (Text.startingWith filter).utf8ByteSize ≤ Text.maxPatternBytes) (hmax : s.options.searchLimit ≤ maxLimit)
    (scope : String) : s.Answered (· = (s.database.tags.filter fun r =>
        r.tag.scope = scope ∧ Text.Begins filter r.tag.name ∧ r.tag.kind ∈ kinds).take s.options.searchLimit)
      ((tagsByScopeAndKind scope kinds filter).run s).1 := by
  rw [tagsByScopeAndKind]
  split
  · rename_i hnone
    refine .inl ?_
    simp [List.isEmpty_iff.mp hnone]
    rfl
  · rw [Lookup.run_limited]
    exact hf.isCurrent.fetch_answered (isTooLarge_byScopeAndKind hfew) (run_byScopeAndKind h.sound_database hshort hmax)

section Draws

variable {D : Database → Prop} {o : Options} (hD : ∀ db db', db.SameTables db' → D db → D db') (h0 : D {})

include hD h0

theorem begins_tagsByScopeAndKind : Meets (Draws D o) (tagsByScopeAndKind scope kinds filter) fun rows =>
    ∀ r ∈ rows, Text.Begins filter r.tag.name := by
  refine .ite (.pure (List.forall_mem_nil _)) (draws_limited fun n => (draws_fetchKinds hD h0 _ []).imp ?_)
  intro rows hrows r hr
  obtain ⟨_, _, _, haccepts⟩ := hrows r hr
  exact (accepts_byScopeAndKind.mp haccepts).2.1

theorem begins_fileScopedTags : Meets (Draws D o) (fileScopedTags file name kinds) fun rows =>
    ∀ r ∈ rows, Text.Begins name r.tag.name := by
  refine .ite (.pure (List.forall_mem_nil _)) (draws_limited fun _ => ?_)
  refine (draws_fetchKinds hD h0 _ kinds).bind fun anonymous ha => draws_limited fun _ => ?_
  refine (draws_fetchKinds hD h0 _ []).bind fun members hm => .pure fun r hr => ?_
  rcases List.mem_append.mp (mem_of_mem_distinctRows (List.mem_mergeSort.mp hr)) with hr | hr
  · obtain ⟨_, _, _, haccepts⟩ := ha r hr
    exact (accepts_anonymousOfFile.mp haccepts).1.2
  · obtain ⟨_, _, _, haccepts⟩ := hm r hr
    exact (accepts_membersOfFile.mp haccepts).1.2

end Draws

/-! ## What the mode governs -/

/-- A text that starts with another in the case of its letters starts with it in any case. -/
theorem starts_of_matches {caseSensitive : Bool} {text : String} (h : Test.Matches name true caseSensitive text) :
    Text.Begins name text ∧ (caseSensitive → name.toList <+: text.toList) := by
  cases caseSensitive with
  | false => exact ⟨h, fun he => absurd he Bool.false_ne_true⟩
  | true => exact ⟨Text.begins_of_starts h, fun _ => h⟩

/-- Where names of the global scope matter, every projection that the session answers from tells them. -/
theorem Reachable.draws_projected {p : Prop} (h : s.Reachable) (hu : p → s.Unscathed) :
    Draws (fun db => p → db.Sound ∧ db.Projected) s.options s := by
  refine ⟨?_, rfl⟩
  by_cases hp : p
  · have hdraws := After.drawsFrom (fun _ _ => Batch.restored_projected.aboutTags.sameTables)
      ⟨Database.sound_empty, Database.projected_empty⟩ (fun hs => Unscathed.projected hs) (hu hp)
    simpa [hp] using hdraws
  · have hdraws := After.drawsFrom (I := fun _ => True) (fun _ _ _ _ => trivial) trivial
      (fun _ _ => ⟨trivial, fun _ _ => trivial⟩) h
    simpa [hp] using hdraws

theorem starts_of_tags {text : String} (h : s.Reachable) {question : Question} (ht : question.start? = some text)
    (hn : question.NamesTold s) (hr : r ∈ (question.tags.run s).1) : Text.Begins text r.tag.name ∧
      (question.HeedsCase → s.options.caseSensitive → text.toList <+: r.tag.name.toList) := by
  have hsame : ∀ p : Prop, ∀ db db' : Database, db.SameTables db' → (p → db.Sound ∧ db.Projected) →
      p → db'.Sound ∧ db'.Projected :=
    fun p _ _ hs hdb hp => Batch.restored_projected.aboutTags.sameTables hs (hdb hp)
  have hempty : ∀ p : Prop, p → Database.Sound {} ∧ Database.Projected {} :=
    fun _ _ => ⟨Database.sound_empty, Database.projected_empty⟩
  have hdraws := h.draws_projected (p := False) False.elim
  cases question with
  | fileScopedTags file name kinds =>
      obtain rfl : name = text := Option.some.inj ht
      exact ⟨(begins_fileScopedTags (hsame _) (hempty _) s hdraws).2 r hr, False.elim⟩
  | tagsByScopeAndKind scope kinds filter =>
      obtain rfl : filter = text := Option.some.inj ht
      exact ⟨(begins_tagsByScopeAndKind (hsame _) (hempty _) s hdraws).2 r hr, False.elim⟩
  | tagsByName name isPartial =>
      obtain ⟨rfl, rfl⟩ : isPartial = true ∧ name = text := by simpa [Question.start?] using ht
      exact (starts_of_matches ((matches_tagsByName (hsame _) (hempty _) s hdraws).2 r hr)).imp_right fun hstart _ => hstart
  | tagsByScopeAndName scope name isPartial =>
      obtain ⟨rfl, rfl⟩ : isPartial = true ∧ name = text := by simpa [Question.start?] using ht
      exact (starts_of_matches ((matches_tagsByScopeAndName (hsame _) (hempty _) (fun hscope _ hdb => hdb hscope) s
        (h.draws_projected hn)).2 r hr)).imp_right fun hstart _ => hstart
  | tagsByScopesAndName scopes name isPartial =>
      obtain ⟨rfl, rfl⟩ : isPartial = true ∧ name = text := by simpa [Question.start?] using ht
      exact (starts_of_matches ((matches_tagsByScopesAndName (hsame _) (hempty _) (fun hm _ hdb => hdb hm) s
        (h.draws_projected hn)).2 r hr)).imp_right fun hstart _ => hstart
  | _ => cases ht

end Store
end TagIndex
