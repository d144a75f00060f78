import TagIndex.Proofs.Repeats
import TagIndex.Proofs.Rollback

/-!
# Where the rows of replies come from

Every row of a reply was in the tables that the session saw when it was asked, also if the answer was kept before. As
long as opening the file again would take nothing back, that is as good as what the session sees now.
-/

namespace TagIndex

open Lookup

/-! ## Rows of one kind only -/

namespace Store

variable {α : Type} {P : Row → Prop} {s t : Store} {c : Connection} {db : Database}

/-- The session tells only rows with `P`: it sees no others, nor would it if the file were opened again, and it has
kept no others. -/
structure TellsOnly (P : Row → Prop) (s : Store) : Prop where
  kept : s.KeepsFrom (fun _ => True) fun db => ∀ r ∈ db.tags, P r
  lossless : s.Secure ∨ s.Idle ∧ s.OnPath
  tags : ∀ r ∈ s.database.tags, P r

theorem TellsOnly.moves (h : s.TellsOnly P) (hc : s.connection = some c) (hm : Moves s c s.database t)
    (hs : StaysOpen s t) : t.TellsOnly P where
  kept := h.kept.remains (.inl hm.cache)
  lossless := h.lossless.imp (fun hu => hu.moves hc hm) fun hi => ⟨hm.idle hc hi.1, lasting_onPath.moves hc hm hi.2⟩
  tags := by rcases hm.database hc hs with hd | hd <;> rw [hd] <;> exact h.tags

/-- Where nothing is pending, the rows are those of the file, which are there when it is opened again. -/
theorem TellsOnly.reopen (h : s.TellsOnly P) (hi : s.Idle) (hp : s.OnPath) (hc : s.connection = some c) :
    s.reopen.2.TellsOnly P := by
  obtain ⟨hidle, htags⟩ := reopen_tags hi hp hc
  refine ⟨h.kept.remains s.reopen_remains.1, .inr ⟨hidle, lasting_onPath.reopen hp⟩, ?_⟩
  rcases htags with hsame | hnone
  · rw [hsame]
    exact h.tags
  · rw [hnone]
    exact List.forall_mem_nil P

theorem TellsOnly.askDatabase (h : s.TellsOnly P) {f : Database → Except Fault α}
    (hf : ∀ db e, f db = .error e → e.disturbs = false) : ((Store.askDatabase f).run s).2.TellsOnly P :=
  askDatabase_keeps h.lossless hf (fun hc hm hs => h.moves hc hm hs) (fun hc hi hp ht => ht.reopen hi hp hc) h

theorem TellsOnly.perform (h : s.TellsOnly P) (hc : s.connection = some c) {w : Work α} (hr : ReadsOnly w)
    (hw : w.Candid) : (s.perform c w).2.TellsOnly P :=
  h.moves hc (hr.moves hc) <| h.lossless.elim (fun hs => hs.perform_staysOpen hc hw) fun hi _ => hi.1

theorem KeepsFrom.forall_mem_fetchKinds {A : List String → Prop} {D : Database → Prop} (h : s.KeepsFrom A D)
    (hd : D s.database) (hD : ∀ db, D db → ∀ r ∈ db.tags, P r) (q : Query) (kinds : List String) :
    ∀ r ∈ ((Store.fetchKinds q kinds).run s).1, P r := by
  intro r hr
  obtain ⟨db, hdb, hmem, _⟩ := h.mem_fetchKinds hd hr
  exact hD db hdb r hmem

theorem meets_fetchKinds_only (q : Query) (kinds : List String) :
    Meets (TellsOnly P) (fetchKinds q kinds) fun rows => ∀ r ∈ rows, P r := by
  intro s h
  refine ⟨?_, h.kept.forall_mem_fetchKinds h.tags (fun _ hdb => hdb) q kinds⟩
  have hasked := h.askDatabase (f := q.run) fun _ _ => Query.disturbs_of_run
  have hkept : ((fetchKinds q kinds).run s).2.KeepsFrom (fun _ => True) fun db => ∀ r ∈ db.tags, P r :=
    h.kept.fetchKinds h.tags trivial q
  rcases s.fetchKinds_cases q kinds with hs | hs | ⟨_, _, hs⟩ <;> rw [hs] at hkept ⊢
  · exact h
  · exact hasked
  · exact ⟨hkept, hasked.lossless, hasked.tags⟩

end Store

/-! ## Replies -/

/-- The tags that a reply tells. -/
def Reply.tags : Reply → List Row
  | .rows found => found
  | .row found => found.toList
  | _ => []

namespace Question

open Store

variable {J : Store → Prop} {P : Row → Prop}

/-- Whatever is true of all rows that are fetched is true of those that are answered. -/
theorem meets_reply (hf : ∀ q kinds, Meets J (Store.fetchKinds q kinds) fun rows => ∀ r ∈ rows, P r)
    (ha : ∀ (α : Type) (f : Database → Except Fault α),
      (∀ db e, f db = .error e → e.disturbs = false) → Keeps J (Store.askDatabase f))
    (hs : ∀ s : Store, J s → J s.statistics.2 ∧ J s.schemaVersion.2) (question : Question) :
    Meets J question.reply fun reply => ∀ r ∈ reply.tags, P r := by
  intro s h
  have hkeeps : J (question.reply.run s).2 := by
    rw [run_reply]
    exact question.keeps (A := fun _ => True) trivial (fun q kinds _ t ht => (hf q kinds t ht).1) ha hs
      question.filtersBy_true h
  refine ⟨hkeeps, ?_⟩
  -- Lookups are built of fetches, of the limit and of the test for names; each part hands on only rows that it was given.
  let Fits (l : Lookup (List Row)) : Prop := Meets J l fun rows => ∀ r ∈ rows, P r
  have hnone : Fits (pure []) := .pure (List.forall_mem_nil P)
  have hn : ∀ q, Fits (Store.fetch q) := fun q => hf q []
  have hlimited : ∀ {l : Nat → Lookup (List Row)}, (∀ n, Fits (l n)) → Fits (searchLimit >>= l) := fun hl =>
    Meets.bind (P := fun _ => True) (.read fun _ _ => trivial) fun n _ => hl n
  have hnamed : ∀ name isPartial {l : Test → Lookup (List Row)}, (∀ test, Fits (l test)) →
      Fits (nameTest name isPartial >>= l) := fun name isPartial l hl =>
    Meets.bind (P := fun _ => True) (.read fun _ _ => trivial) fun test _ => hl test
  have hl : ∀ q : Nat → Query, Fits (do Store.fetch (q (← searchLimit))) := fun q => hlimited fun n => hn (q n)
  have hfirst : ∀ q, Meets J (do return (← Store.fetch q).head?) fun found => ∀ r ∈ found, P r :=
    fun q => (hn q).bind fun rows hrows => .pure fun r hr => hrows r (List.mem_of_mem_head? hr)
  have hone : ∀ {l : Lookup (Option Row)}, Meets J l (fun found => ∀ r ∈ found, P r) → ∀ r ∈ (l.run s).1.toList, P r :=
    fun hl r hr => (hl s h).2 r (Option.mem_toList.mp hr)
  have hscope : ∀ scope name isPartial, Fits (Store.tagsByScopeAndName scope name isPartial) :=
    fun scope name isPartial => .ite hnone (hnamed _ _ fun test => hl (Query.byScopeAndName scope test))
  cases question with
  | tagsByFile file => exact (hl (Query.byFile file) s h).2
  | tagsByFileAndLine file line => exact (hl (Query.byFileAndLine file line) s h).2
  | tagsByKindAndFile kinds file sorting => exact (Meets.ite hnone (hl (Query.byKindAndFile kinds file sorting)) s h).2
  | scopeAt file line => exact hone (.ite (.pure nofun) (hfirst _))
  | fileScopedTags file name kinds =>
      refine (Meets.ite hnone (hlimited fun n => (hf _ kinds).bind fun anonymous ha => hlimited fun m =>
        (hn _).bind fun members hm => .pure fun r hr => ?_) s h).2
      rcases List.mem_append.mp (mem_of_mem_distinctRows (List.mem_mergeSort.mp hr)) with hr | hr
      · exact ha r hr
      · exact hm r hr
  | tagsByScope scope => exact (hl (Query.byScope scope) s h).2
  | tagsByScopeAndName scope name isPartial => exact (hscope scope name isPartial s h).2
  | tagsByScopesAndName scopes name isPartial =>
      have hmerge : ∀ limit {global nested}, (∀ r ∈ global, P r) → (∀ r ∈ nested, P r) →
          Fits (pure (mergeScopes limit nested scopes [] global [])) := fun limit global nested hg hd =>
        .pure fun r hr => (mem_mergeScopes hr).elim (nomatch ·) fun hr => hr.elim (hg r) (hd r)
      have hjoin : ∀ limit global, (∀ r ∈ global, P r) → Fits (joinNamed limit scopes name isPartial global) :=
        fun limit global hg => .ite (.pure_bind (hmerge limit hg (List.forall_mem_nil P)))
          (hnamed _ _ fun test => (hn _).bind fun nested => hmerge limit hg)
      have hall : Fits (Store.tagsByScopesAndName scopes name isPartial) := by
        rw [tagsByScopesAndName_eq]
        refine .ite hnone (hlimited fun limit => .ite ?_ (hjoin limit [] (List.forall_mem_nil P)))
        exact (hscope _ _ _).bind fun global => hjoin limit global
      exact (hall s h).2
  | tagsByScopesAndKind scopes kinds =>
      -- By induction on the scopes, for any rows found so far.
      have hwalk : ∀ limit scopes tags, (∀ r ∈ tags, P r) → Fits (Store.tagsOfScopes limit kinds scopes tags) := by
        intro limit scopes
        induction scopes with
        | nil => exact fun tags ht => .pure ht
        | cons scope scopes ih =>
            intro tags ht
            refine (hf _ kinds).bind fun found hfound => ?_
            have hboth : ∀ r ∈ tags ++ found, P r := List.forall_mem_append.mpr ⟨ht, hfound⟩
            exact .ite (.pure hboth) (ih _ hboth)
      exact (Meets.ite hnone (hlimited fun n => hwalk n scopes [] (List.forall_mem_nil P)) s h).2
  | tagsByScopeAndKind scope kinds filter =>
      exact (Meets.ite hnone (hl (Query.byScopeAndKind scope kinds filter)) s h).2
  | tagsByKind kinds sorting => exact (Meets.ite hnone (hl (Query.byKind kinds sorting)) s h).2
  | tagsByPath paths => exact (Meets.ite hnone (hl (Query.byPaths paths)) s h).2
  | tagsByPathLimit path limit => exact (Meets.ite hnone (hl fun n => Query.byPath path (min limit n)) s h).2
  | tagsByPathAndKind path kinds limit =>
      exact (Meets.ite hnone (hl fun n => Query.byPathAndKind path kinds (min limit n)) s h).2
  | tagsByKindAndPath kinds path => exact (Meets.ite hnone (hlimited fun n => hf (Query.byPath path n) kinds) s h).2
  | tagsByPathParts parts => exact (Meets.ite hnone (hl (Query.byPathParts parts)) s h).2
  | tagsByName name isPartial => exact (Meets.ite hnone (hnamed _ _ fun test => hl (Query.byName test)) s h).2
  | tagByNameLimitOne name => exact hone (.ite (.pure nofun) (hfirst _))
  | tagsByPartName part => exact (Meets.ite hnone (hl (Query.byName _)) s h).2
  | tagsByNameAndParent name parent =>
      exact (Meets.ite hnone (hlimited fun n => (hn _).bind fun rows hrows =>
        .pure fun r hr => hrows r (List.mem_of_mem_filter hr)) s h).2
  | parameters functionPath => exact (hl (Query.byKindAndScope _ functionPath) s h).2
  | lambdas functionPath => exact (hl (Query.byKindAndScope _ functionPath) s h).2
  | dereferenceOperator scope => exact hone (hfirst (Query.operatorOfScope scope _))
  | subscriptOperator scope => exact hone (hfirst (Query.operatorOfScope scope _))
  | _ => exact List.forall_mem_nil P

end Question

namespace Store

open Relation

variable {P : Row → Prop} {s t v : Store} {step : Step}

theorem TellsOnly.reply (h : s.TellsOnly P) (question : Question) :
    (question.ask s).TellsOnly P ∧ ∀ r ∈ (question.reply.run s).1.tags, P r := by
  rw [← Question.run_reply]
  refine Question.meets_reply meets_fetchKinds_only (fun _ _ hf t ht => ht.askDatabase hf) (fun t ht => ⟨?_, ?_⟩)
    question s h
  · unfold statistics
    split
    · exact ht
    · exact ht.perform ‹_› readsOnly_statistics Statistics.candid_read
  · unfold schemaVersion
    split
    · exact ht
    · exact ht.perform ‹_› (readsOnly_query _) .ask

/-- One store comes after the other by a step that writes nothing, while nothing is pending or nothing takes back what
is. -/
def Rests (s s' : Store) : Prop :=
  ∃ step : Step, step.Allowed s ∧ step.WritesNothing ∧ (s.Secure ∨ s.Idle) ∧ step.act s = s'

/-- What all work keeps of the rows in the tables is true of all rows that are answered, damage or not. -/
theorem Reachable.reply_of_kept {I : Database → Prop} (hI : Kept I) (h0 : I {})
    (hP : ∀ db, I db → ∀ r ∈ db.tags, P r) (h : s.Reachable) (question : Question) :
    ∀ r ∈ (question.reply.run s).1.tags, P r := by
  have hsame : ∀ db db', db.SameTables db' → I db → I db' := fun _ _ => hI.aboutTags.sameTables
  have hmoves : ∀ {t u}, (u = t ∨ ∃ c, t.connection = some c ∧ Moves t c t.database u) →
      t.DrawsFrom (fun _ => True) I → u.DrawsFrom (fun _ => True) I := by
    rintro t u (rfl | ⟨c, hc, hm⟩) ht
    · exact ht
    · exact ht.moves hsame h0 hc hm
  exact (Question.meets_reply (J := DrawsFrom (fun _ => True) I)
    (fun q kinds t ht => ⟨ht.fetchKinds hsame h0 trivial q,
      ht.kept.forall_mem_fetchKinds (ht.database h0) hP q kinds⟩)
    (fun α f _ t ht => ht.askDatabase hsame h0 f)
    (fun t ht => ⟨hmoves t.statistics_cases ht, hmoves t.schemaVersion_cases ht⟩) question s (h.drawsFrom hI h0)).2

/-- The session sees only rows with `P`, and has kept no others. -/
structure HasOnly (P : Row → Prop) (s : Store) : Prop where
  reachable : s.Reachable
  kept : s.KeepsFrom (fun _ => True) fun db => ∀ r ∈ db.tags, P r
  tags : ∀ r ∈ s.database.tags, P r

theorem HasOnly.tellsOnly (h : s.HasOnly P) (hl : s.Secure ∨ s.Idle) : s.TellsOnly P :=
  ⟨h.kept, hl.imp_right fun hi => ⟨hi, h.reachable.onPath⟩, h.tags⟩

theorem HasOnly.rests (h : s.HasOnly P) (hr : Rests s t) : t.HasOnly P := by
  obtain ⟨step, ha, hw, hl, rfl⟩ := hr
  have hnext : (step.act s).Reachable := .next step h.reachable ha trivial
  cases step with
  | setBusyTimeout ms => exact ⟨hnext, h.kept, h.tags⟩
  | setSearchLimit limit => exact ⟨hnext, h.kept, h.tags⟩
  | setCaseSensitive on => exact ⟨hnext, h.kept, h.tags⟩
  | setUseCache on => exact ⟨hnext, h.kept.remains (Step.act_remains s nofun), h.tags⟩
  | clearCache => exact ⟨hnext, .of_empty rfl, h.tags⟩
  | ask question =>
      have hasked := ((h.tellsOnly hl).reply question).1
      exact ⟨hnext, hasked.kept, hasked.tags⟩
  | outside disk => exact ⟨hnext, h.kept, fun r hr => h.tags r ((outside_sameTables ha).tags ▸ hr)⟩
  | _ => exact hw.elim

/-- While a session rests, it is answered from what it saw and had kept before. -/
theorem HasOnly.answers_rested (h : s.HasOnly P) (hr : ReflTransGen Rests s v) (hl : v.Secure ∨ v.Idle)
    (question : Question) : ∀ r ∈ (question.reply.run v).1.tags, P r := by
  suffices hv : v.HasOnly P from ((hv.tellsOnly hl).reply question).2
  clear hl
  induction hr with
  | refl => exact h
  | tail _ hn ih => exact ih.rests hn

end Store
end TagIndex
