import TagIndex.Proofs.Work
import TagIndex.Store.Files
import TagIndex.Store.Lookup
import TagIndex.Store.Resolve
import TagIndex.Store.Statistics

/-!
# What lookups keep

Lookups reach a store only by its options, by fetching rows and by asking the database. What these keep, every lookup
keeps.
-/

namespace TagIndex

namespace Lookup

variable {α β : Type} {J : Store → Prop} {l : Lookup α} {f : α → Lookup β}

/-- Whatever the lookup answers, `J` stays true. -/
def Keeps (J : Store → Prop) (l : Lookup α) : Prop := ∀ s, J s → J (l.run s).2

theorem Keeps.pure {a : α} : Keeps J (pure a : Lookup α) := fun _ => id

theorem Keeps.bind (hl : Keeps J l) (hf : ∀ a, Keeps J (f a)) : Keeps J (l >>= f) :=
  fun s h => hf _ _ (hl s h)

theorem Keeps.read {g : Store → α} : Keeps J (do return g (← get)) := fun _ => id

/-- From where `J` is true the lookup answers as `Q` says, and `J` stays true. -/
def Meets (J : Store → Prop) (l : Lookup α) (Q : α → Prop) : Prop :=
  ∀ s, J s → J (l.run s).2 ∧ Q (l.run s).1

section Meets

variable {P Q : α → Prop} {S : β → Prop}

theorem Meets.pure_bind {a : α} (hf : Meets J (f a) S) : Meets J ((pure a : Lookup α) >>= f) S := hf

theorem Meets.pure {a : α} (h : Q a) : Meets J (pure a : Lookup α) Q := fun _ hj => ⟨hj, h⟩

theorem Meets.bind (hl : Meets J l P) (hf : ∀ a, P a → Meets J (f a) S) : Meets J (l >>= f) S :=
  fun s hj => hf _ (hl s hj).2 _ (hl s hj).1

theorem Meets.imp (hl : Meets J l P) (h : ∀ a, P a → Q a) : Meets J l Q :=
  fun s hj => ⟨(hl s hj).1, h _ (hl s hj).2⟩

theorem Meets.ite {p : Prop} [Decidable p] {l' : Lookup α} (h : Meets J l Q) (h' : Meets J l' Q) :
    Meets J (if p then l else l') Q := by
  split
  · exact h
  · exact h'

theorem Meets.read {g : Store → α} (h : ∀ s, J s → Q (g s)) : Meets J (do return g (← get)) Q :=
  fun s hj => ⟨hj, h s hj⟩

end Meets

theorem run_bind (l : Lookup α) (f : α → Lookup β) (s : Store) :
    (l >>= f).run s = (f (l.run s).1).run (l.run s).2 := rfl

theorem run_limited (f : Nat → Lookup α) (s : Store) :
    (Store.searchLimit >>= f).run s = (f s.options.searchLimit).run s := rfl

theorem run_named (name : String) (isPartial : Bool) (f : Test → Lookup α) (s : Store) :
    (Store.nameTest name isPartial >>= f).run s = (f (.forName name isPartial s.options.caseSensitive)).run s := rfl

end Lookup

/-! ## Several scopes -/

namespace Store

/-- The scopes of a list that are asked for together. -/
def namedScopes (scopes : List String) : List String := scopes.filter (· ≠ globalScope)

/-- Asks in the named scopes for what the global one leaves of the limit, and joins the rows. -/
def joinNamed (limit : Nat) (scopes : List String) (name : String) (isPartial : Bool) (global : List Row) :
    Lookup (List Row) := do
  let nested ←
    if (namedScopes scopes).isEmpty then pure []
    else fetch (Query.byScopesAndName (namedScopes scopes) (← nameTest name isPartial) (remaining limit global.length))
  return mergeScopes limit nested scopes [] global []

/-- A lookup in several scopes asks in the global one first, if it is listed. -/
theorem tagsByScopesAndName_eq (scopes : List String) (name : String) (isPartial : Bool) :
    tagsByScopesAndName scopes name isPartial = if scopes.isEmpty ∨ name = "" then pure [] else
      searchLimit >>= fun limit =>
        if scopes.contains globalScope then
          tagsByScopeAndName globalScope name isPartial >>= joinNamed limit scopes name isPartial
        else joinNamed limit scopes name isPartial [] := rfl

end Store

/-! ## What lookups are made of -/

namespace Lookup

/-- A lookup that reaches the store only by reading its options, by fetching rows that are filtered as `A` says, and by
asking the database what never tells of damage itself. -/
inductive Made (A : List String → Prop) : {α : Type} → Lookup α → Prop where
  | pure {α : Type} (a : α) : Made A (pure a : Lookup α)
  | bind {α β : Type} {l : Lookup α} {f : α → Lookup β} (hl : Made A l) (hf : ∀ a, Made A (f a)) : Made A (l >>= f)
  | limit : Made A Store.searchLimit
  | test (name : String) (isPartial : Bool) : Made A (Store.nameTest name isPartial)
  | fetch (q : Query) {kinds : List String} (h : A kinds) : Made A (Store.fetchKinds q kinds)
  | ask {α : Type} {f : Database → Except Fault α} (hf : ∀ db e, f db = .error e → e.disturbs = false) :
    Made A (Store.askDatabase f)

namespace Made

variable {α β : Type} {A : List String → Prop} {J : Store → Prop} {l : Lookup α}

theorem map (hl : Made A l) (g : α → β) : Made A (g <$> l) := .bind hl fun a => .pure (g a)

theorem ite {p : Prop} [Decidable p] {l' : Lookup α} (h : Made A l) (h' : Made A l') : Made A (if p then l else l') := by
  split
  · exact h
  · exact h'

/-- Whatever fetching and asking keep, such a lookup keeps. -/
theorem keeps (h : Made A l) (hf : ∀ q kinds, A kinds → Keeps J (Store.fetchKinds q kinds))
    (ha : ∀ (α : Type) (f : Database → Except Fault α),
      (∀ db e, f db = .error e → e.disturbs = false) → Keeps J (Store.askDatabase f)) : Keeps J l := by
  induction h with
  | pure a => exact .pure
  | bind _ _ hl hf => exact .bind hl hf
  | limit => exact .read
  | test name isPartial => exact .read
  | fetch q hk => exact hf q _ hk
  | ask he => exact ha _ _ he

end Made
end Lookup

/-! ## Questions -/

/-- A query that fails does not tell of damage. -/
theorem Query.disturbs_of_run {q : Query} {db : Database} {e : Fault} (h : q.run db = .error e) :
    e.disturbs = false := by
  unfold run at h
  split at h
  · cases h
    rfl
  split at h
  · cases h
  split at h
  · cases h
    rfl
  · cases h

theorem Database.disturbs_of_filesLike {pattern : String} {f : String → String} {db : Database} {e : Fault}
    (h : Database.filesLike pattern f db = .error e) : e.disturbs = false := by
  unfold filesLike at h
  split at h <;> cases h
  rfl

/-- All that a store can be asked. -/
inductive Question where
  | tagsByFile (file : String)
  | tagsByFileAndLine (file : String) (line : Int)
  | tagsByKindAndFile (kinds : List String) (file : String) (sorting : Option Sorting)
  | scopeAt (file : String) (line : Int)
  | fileScopedTags (file name : String) (kinds : List String)
  | tagsByScope (scope : String)
  | tagsByScopeAndName (scope name : String) (isPartial : Bool)
  | tagsByScopesAndName (scopes : List String) (name : String) (isPartial : Bool)
  | tagsByScopesAndKind (scopes kinds : List String)
  | tagsByScopeAndKind (scope : String) (kinds : List String) (filter : String)
  | tagsByKind (kinds : List String) (sorting : Option Sorting)
  | tagsByPath (paths : List String)
  | tagsByPathLimit (path : String) (limit : Nat)
  | tagsByPathAndKind (path : String) (kinds : List String) (limit : Nat)
  | tagsByKindAndPath (kinds : List String) (path : String)
  | tagsByPathParts (parts : List String)
  | tagsByName (name : String) (isPartial : Bool)
  | tagByNameLimitOne (name : String)
  | tagsByPartName (part : String)
  | tagsByNameAndParent (name parent : String)
  | parameters (functionPath : String)
  | lambdas (functionPath : String)
  | dereferenceOperator (scope : String)
  | subscriptOperator (scope : String)
  | resolveTypeScope (typeName scope : String)
  | typeAndScopeExists (typeName scope : String)
  | files
  | filesMatching (text : String)
  | filesForCompletion (typed : String)
  | getMacro (name : String)
  | simpleMacrosForFile (file : String)
  | statistics
  | schemaVersion

/-- What a question can be answered with. -/
inductive Reply where
  | rows (rows : List Row)
  | row (row : Option Row)
  | typeScope (found : Option TypeScope)
  | truth (b : Bool)
  | files (files : List FileEntry)
  | texts (texts : List String)
  | token (token : Option Macro.Token)
  | statistics (counts : Except StoreError Statistics)
  | version (version : Option String)

namespace Question

open Lookup

/-- The store after it was asked. -/
def ask (s : Store) : Question → Store
  | tagsByFile file => ((Store.tagsByFile file).run s).2
  | tagsByFileAndLine file line => ((Store.tagsByFileAndLine file line).run s).2
  | tagsByKindAndFile kinds file sorting => ((Store.tagsByKindAndFile kinds file sorting).run s).2
  | scopeAt file line => ((Store.scopeAt file line).run s).2
  | fileScopedTags file name kinds => ((Store.fileScopedTags file name kinds).run s).2
  | tagsByScope scope => ((Store.tagsByScope scope).run s).2
  | tagsByScopeAndName scope name isPartial => ((Store.tagsByScopeAndName scope name isPartial).run s).2
  | tagsByScopesAndName scopes name isPartial =>
    ((Store.tagsByScopesAndName scopes name isPartial).run s).2
  | tagsByScopesAndKind scopes kinds => ((Store.tagsByScopesAndKind scopes kinds).run s).2
  | tagsByScopeAndKind scope kinds filter => ((Store.tagsByScopeAndKind scope kinds filter).run s).2
  | tagsByKind kinds sorting => ((Store.tagsByKind kinds sorting).run s).2
  | tagsByPath paths => ((Store.tagsByPath paths).run s).2
  | tagsByPathLimit path limit => ((Store.tagsByPathLimit path limit).run s).2
  | tagsByPathAndKind path kinds limit => ((Store.tagsByPathAndKind path kinds limit).run s).2
  | tagsByKindAndPath kinds path => ((Store.tagsByKindAndPath kinds path).run s).2
  | tagsByPathParts parts => ((Store.tagsByPathParts parts).run s).2
  | tagsByName name isPartial => ((Store.tagsByName name isPartial).run s).2
  | tagByNameLimitOne name => ((Store.tagByNameLimitOne name).run s).2
  | tagsByPartName part => ((Store.tagsByPartName part).run s).2
  | tagsByNameAndParent name parent => ((Store.tagsByNameAndParent name parent).run s).2
  | parameters functionPath => ((Store.parameters functionPath).run s).2
  | lambdas functionPath => ((Store.lambdas functionPath).run s).2
  | dereferenceOperator scope => ((Store.dereferenceOperator scope).run s).2
  | subscriptOperator scope => ((Store.subscriptOperator scope).run s).2
  | resolveTypeScope typeName scope => ((Store.resolveTypeScope typeName scope).run s).2
  | typeAndScopeExists typeName scope => ((Store.typeAndScopeExists typeName scope).run s).2
  | files => (Store.files.run s).2
  | filesMatching text => ((Store.filesMatching text).run s).2
  | filesForCompletion typed => ((Store.filesForCompletion typed).run s).2
  | getMacro name => ((Store.getMacro name).run s).2
  | simpleMacrosForFile file => ((Store.simpleMacrosForFile file).run s).2
  | statistics => s.statistics.2
  | schemaVersion => s.schemaVersion.2

def reply : Question → Lookup Reply
  | tagsByFile file => .rows <$> Store.tagsByFile file
  | tagsByFileAndLine file line => .rows <$> Store.tagsByFileAndLine file line
  | tagsByKindAndFile kinds file sorting => .rows <$> Store.tagsByKindAndFile kinds file sorting
  | scopeAt file line => .row <$> Store.scopeAt file line
  | fileScopedTags file name kinds => .rows <$> Store.fileScopedTags file name kinds
  | tagsByScope scope => .rows <$> Store.tagsByScope scope
  | tagsByScopeAndName scope name isPartial => .rows <$> Store.tagsByScopeAndName scope name isPartial
  | tagsByScopesAndName scopes name isPartial => .rows <$> Store.tagsByScopesAndName scopes name isPartial
  | tagsByScopesAndKind scopes kinds => .rows <$> Store.tagsByScopesAndKind scopes kinds
  | tagsByScopeAndKind scope kinds filter => .rows <$> Store.tagsByScopeAndKind scope kinds filter
  | tagsByKind kinds sorting => .rows <$> Store.tagsByKind kinds sorting
  | tagsByPath paths => .rows <$> Store.tagsByPath paths
  | tagsByPathLimit path limit => .rows <$> Store.tagsByPathLimit path limit
  | tagsByPathAndKind path kinds limit => .rows <$> Store.tagsByPathAndKind path kinds limit
  | tagsByKindAndPath kinds path => .rows <$> Store.tagsByKindAndPath kinds path
  | tagsByPathParts parts => .rows <$> Store.tagsByPathParts parts
  | tagsByName name isPartial => .rows <$> Store.tagsByName name isPartial
  | tagByNameLimitOne name => .row <$> Store.tagByNameLimitOne name
  | tagsByPartName part => .rows <$> Store.tagsByPartName part
  | tagsByNameAndParent name parent => .rows <$> Store.tagsByNameAndParent name parent
  | parameters functionPath => .rows <$> Store.parameters functionPath
  | lambdas functionPath => .rows <$> Store.lambdas functionPath
  | dereferenceOperator scope => .row <$> Store.dereferenceOperator scope
  | subscriptOperator scope => .row <$> Store.subscriptOperator scope
  | resolveTypeScope typeName scope => .typeScope <$> Store.resolveTypeScope typeName scope
  | typeAndScopeExists typeName scope => .truth <$> Store.typeAndScopeExists typeName scope
  | files => .files <$> Store.files
  | filesMatching text => .files <$> Store.filesMatching text
  | filesForCompletion typed => .texts <$> Store.filesForCompletion typed
  | getMacro name => .token <$> Store.getMacro name
  | simpleMacrosForFile file => .texts <$> Store.simpleMacrosForFile file
  | statistics => .statistics <$> (fun s => s.statistics : Lookup _)
  | schemaVersion => .version <$> (fun s => s.schemaVersion : Lookup _)

/-- A reply leaves the store as the question does. -/
theorem run_reply (s : Store) (question : Question) : (question.reply.run s).2 = question.ask s := by
  cases question <;> rfl

/-- Where a question looks at the kinds of rows after the database has answered, it takes kinds that
satisfy `A`. -/
def FiltersBy (A : List String → Prop) : Question → Prop
  | fileScopedTags _ _ kinds | tagsByScopesAndKind _ kinds | tagsByKindAndPath kinds _ => A kinds
  | _ => True

/-- A question that lookups answer, from the cache or through the database. -/
def IsLookup : Question → Prop
  | statistics | schemaVersion => False
  | _ => True

/-- A question that filters by any kinds at all. -/
theorem filtersBy_true (q : Question) : q.FiltersBy fun _ => True := by
  cases q <;> exact trivial

section Made

variable {A : List String → Prop} (hA : A [])

include hA

/-- What a question for a lookup is answered with is made of fetches and of what the database is asked. -/
theorem made_reply {question : Question} (hlookup : question.IsLookup) (hq : question.FiltersBy A) :
    Made A question.reply := by
  have hn : ∀ q, Made A (Store.fetch q) := fun q => .fetch q hA
  have hl : ∀ q : Nat → Query, Made A (do Store.fetch (q (← Store.searchLimit))) :=
    fun q => .bind .limit fun n => hn (q n)
  have hquery : ∀ q : Query, Made A (Store.askDatabase q.run) := fun q => .ask fun _ _ => q.disturbs_of_run
  have hdata : ∀ {β : Type} (g : Database → β), Made A (Store.askDatabase fun db => .ok (g db)) := fun g => .ask nofun
  have hfiles : ∀ pattern f, Made A (Store.askDatabase (Database.filesLike pattern f)) :=
    fun pattern f => .ask fun _ _ => Database.disturbs_of_filesLike
  have hnone : Made A (pure [] : Lookup (List Row)) := .pure []
  have hfirst : ∀ q, Made A (do return (← Store.fetch q).head?) := fun q => .bind (hn q) fun _ => .pure _
  have hscope : ∀ scope name isPartial, Made A (Store.tagsByScopeAndName scope name isPartial) :=
    fun scope name isPartial => .ite hnone (.bind (.test _ _) fun test => hl (Query.byScopeAndName scope test))
  cases question with
  | tagsByFile file => exact .map (hl (Query.byFile file)) _
  | tagsByFileAndLine file line => exact .map (hl (Query.byFileAndLine file line)) _
  | tagsByKindAndFile kinds file sorting => exact .map (.ite hnone (hl (Query.byKindAndFile kinds file sorting))) _
  | scopeAt file line => exact .map (.ite (.pure none) (hfirst _)) _
  | fileScopedTags file name kinds =>
      exact .map (.ite hnone <| .bind .limit fun _ => .bind (.fetch _ hq) fun _ => .bind .limit fun _ =>
        .bind (hn _) fun _ => .pure _) _
  | tagsByScope scope => exact .map (hl (Query.byScope scope)) _
  | tagsByScopeAndName scope name isPartial => exact .map (hscope scope name isPartial) _
  | tagsByScopesAndName scopes name isPartial =>
      have hjoin : ∀ limit global, Made A (Store.joinNamed limit scopes name isPartial global) := fun _ _ =>
        .ite (.bind hnone fun _ => .pure _) (.bind (.test _ _) fun _ => .bind (hn _) fun _ => .pure _)
      rw [reply, Store.tagsByScopesAndName_eq]
      refine .map (.ite hnone (.bind .limit fun limit => .ite ?_ (hjoin limit []))) _
      exact .bind (hscope _ _ _) (hjoin limit)
  | tagsByScopesAndKind scopes kinds =>
      have hwalk : ∀ limit scopes tags, Made A (Store.tagsOfScopes limit kinds scopes tags) := by
        intro limit scopes
        induction scopes with
        | nil => exact fun _ => .pure _
        | cons scope scopes ih => exact fun tags => .bind (.fetch _ hq) fun _ => .ite (.pure _) (ih _)
      exact .map (.ite hnone (.bind .limit fun _ => hwalk _ _ _)) _
  | tagsByScopeAndKind scope kinds filter => exact .map (.ite hnone (hl (Query.byScopeAndKind scope kinds filter))) _
  | tagsByKind kinds sorting => exact .map (.ite hnone (hl (Query.byKind kinds sorting))) _
  | tagsByPath paths => exact .map (.ite hnone (hl (Query.byPaths paths))) _
  | tagsByPathLimit path limit => exact .map (.ite hnone (hl fun n => Query.byPath path (min limit n))) _
  | tagsByPathAndKind path kinds limit =>
      exact .map (.ite hnone (hl fun n => Query.byPathAndKind path kinds (min limit n))) _
  | tagsByKindAndPath kinds path => exact .map (.ite hnone (.bind .limit fun _ => .fetch _ hq)) _
  | tagsByPathParts parts => exact .map (.ite hnone (hl (Query.byPathParts parts))) _
  | tagsByName name isPartial => exact .map (.ite hnone (.bind (.test _ _) fun test => hl (Query.byName test))) _
  | tagByNameLimitOne name => exact .map (.ite (.pure none) (hfirst _)) _
  | tagsByPartName part => exact .map (.ite hnone (hl (Query.byName _))) _
  | tagsByNameAndParent name parent => exact .map (.ite hnone (.bind .limit fun _ => .bind (hn _) fun _ => .pure _)) _
  | parameters functionPath => exact .map (hl (Query.byKindAndScope _ functionPath)) _
  | lambdas functionPath => exact .map (hl (Query.byKindAndScope _ functionPath)) _
  | dereferenceOperator scope => exact .map (hfirst _) _
  | subscriptOperator scope => exact .map (hfirst _) _
  | resolveTypeScope typeName scope =>
      refine .map (.ite (.pure none) (.bind (hquery _) fun found => ?_)) _
      cases found with
      | none => exact .pure _
      | some rows => exact .pure _
  | typeAndScopeExists typeName scope => exact .map (.bind (hquery _) fun _ => .pure _) _
  | files => exact .map (.bind (hdata _) fun _ => .pure _) _
  | filesMatching text => exact .map (.bind (hfiles _ _) fun _ => .pure _) _
  | filesForCompletion typed => exact .map (.bind (hfiles _ _) fun _ => .pure _) _
  | getMacro name => exact .map (.bind (hdata _) fun _ => .pure _) _
  | simpleMacrosForFile file => exact .map (.bind (hdata _) fun _ => .pure _) _
  | statistics => exact hlookup.elim
  | schemaVersion => exact hlookup.elim

variable {J : Store → Prop} (hf : ∀ q kinds, A kinds → Keeps J (Store.fetchKinds q kinds))
  (ha : ∀ (α : Type) (f : Database → Except Fault α),
    (∀ db e, f db = .error e → e.disturbs = false) → Keeps J (Store.askDatabase f))

include hf ha

/-- Whatever fetching and asking keep, every lookup keeps. What it asks the database never tells of damage
itself. -/
theorem keeps_lookup (q : Question) (hlookup : q.IsLookup) (hq : q.FiltersBy A) {s : Store} (h : J s) :
    J (q.ask s) := by
  rw [← run_reply]
  exact (made_reply hA hlookup hq).keeps hf ha s h

/-- Whatever counting keeps as well, every question keeps. -/
theorem keeps (hs : ∀ s : Store, J s → J s.statistics.2 ∧ J s.schemaVersion.2) (q : Question)
    (hq : q.FiltersBy A) {s : Store} (h : J s) : J (q.ask s) := by
  cases q with
  | statistics => exact (hs s h).1
  | schemaVersion => exact (hs s h).2
  | _ => exact keeps_lookup hA hf ha _ (by trivial) hq h

end Made
end Question
end TagIndex
