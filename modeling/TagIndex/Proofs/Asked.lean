import TagIndex.Proofs.Ceiling
import TagIndex.Proofs.Joining

/-!
# What lookups of tags ask

A lookup of tags asks its queries, with the search limit as it is set, and filters what they find. Most ask one
query and answer its rows; three put together the rows of several.
-/

namespace TagIndex

namespace Lookup

variable {α : Type} {s : Store} {l : Lookup α} {a : α}

/-- What the lookup answers from a store. -/
def Gives (s : Store) (l : Lookup α) (a : α) : Prop := (l.run s).1 = a

theorem Gives.limited {f : Nat → Lookup α} (h : Gives s (f s.options.searchLimit) a) :
    Gives s (Store.searchLimit >>= f) a := h

theorem Gives.named {f : Test → Lookup α} {name : String} {isPartial : Bool}
    (h : Gives s (f (.forName name isPartial s.options.caseSensitive)) a) :
    Gives s (Store.nameTest name isPartial >>= f) a := h

theorem Gives.map {β : Type} (h : Gives s l a) (f : α → β) : Gives s (do return f (← l)) (f a) := congrArg f h

end Lookup

open Lookup Store Query

/-- A query and the kinds that its rows are filtered by. -/
abbrev Asked := Query × List String

namespace Store

/-- The rows that a session answers to some queries, all from the same state. -/
def rowsAsked (s : Store) (asked : List Asked) : List Row :=
  asked.flatMap fun a => ((fetchKinds a.1 a.2).run s).1

theorem gives_rowsAsked (s : Store) (q : Query) (kinds : List String) :
    Gives s (fetchKinds q kinds) (s.rowsAsked [(q, kinds)]) := by
  rw [rowsAsked, List.flatMap_singleton]
  rfl

theorem gives_unless {s : Store} {p : Prop} [Decidable p] {l : Lookup (List Row)} {asked : List Asked}
    (h : Gives s l (s.rowsAsked asked)) :
    Gives s (if p then pure [] else l) (s.rowsAsked (if p then [] else asked)) := by
  split
  · rfl
  · exact h

end Store

namespace Question

variable {question : Question}

/-- The queries of a lookup of tags. Where several share a limit, each is here with the whole of it. -/
def queries (caseSensitive : Bool) (limit : Nat) : Question → List Asked
  | tagsByFile file => [(byFile file limit, [])]
  | tagsByFileAndLine file line => [(byFileAndLine file line limit, [])]
  | tagsByKindAndFile kinds file sorting =>
    if kinds.isEmpty then [] else [(byKindAndFile kinds file sorting limit, [])]
  | fileScopedTags file name kinds =>
    if file = "" then [] else [(anonymousOfFile file name limit, kinds), (membersOfFile file name limit, [])]
  | tagsByScope scope => [(byScope scope limit, [])]
  | tagsByScopeAndName scope name isPartial =>
    if name = "" then [] else [(byScopeAndName scope (.forName name isPartial caseSensitive) limit, [])]
  | tagsByScopesAndName scopes name isPartial =>
    let test := Test.forName name isPartial caseSensitive
    if name = "" then []
    else
      (if globalScope ∈ scopes then [(byScopeAndName globalScope test limit, [])] else []) ++
        if (namedScopes scopes).isEmpty then [] else [(byScopesAndName (namedScopes scopes) test limit, [])]
  | tagsByScopesAndKind scopes kinds =>
    if kinds.isEmpty then [] else scopes.map fun scope => (byScope scope limit, kinds)
  | tagsByScopeAndKind scope kinds filter =>
    if kinds.isEmpty then [] else [(byScopeAndKind scope kinds filter limit, [])]
  | tagsByKind kinds sorting => if kinds.isEmpty then [] else [(byKind kinds sorting limit, [])]
  | tagsByPath paths => if paths.isEmpty then [] else [(byPaths paths limit, [])]
  | tagsByPathLimit path most => if path = "" then [] else [(byPath path (min most limit), [])]
  | tagsByPathAndKind path kinds most =>
    if path = "" then [] else [(byPathAndKind path kinds (min most limit), [])]
  | tagsByKindAndPath kinds path => if kinds.isEmpty then [] else [(byPath path limit, kinds)]
  | tagsByPathParts parts => if parts.isEmpty then [] else [(byPathParts parts limit, [])]
  | tagsByName name isPartial =>
    if name = "" then [] else [(byName (.forName name isPartial caseSensitive) limit, [])]
  | tagsByPartName part => if part = "" then [] else [(byName (.like (Text.containing part)) limit, [])]
  | tagsByNameAndParent name _ => if name = "" then [] else [(byName (.is name) limit, [])]
  | parameters functionPath => [(byKindAndScope Kind.parameter functionPath limit, [])]
  | lambdas functionPath => [(byKindAndScope Kind.function functionPath limit, [])]
  | _ => []

/-- The limit that a call gives itself, next to the search limit. -/
def most? : Question → Option Nat
  | tagsByPathLimit _ most | tagsByPathAndKind _ _ most => some most
  | _ => none

/-- The limit of the queries of a lookup. -/
def limitOf (limit : Nat) (question : Question) : Nat :=
  match question.most? with
  | some most => min most limit
  | none => limit

/-- The parent that a lookup wants the rows of its queries to have. -/
def parent? : Question → Option String
  | tagsByNameAndParent _ parent => some parent
  | _ => none

/-- The rows that a lookup makes of those of its queries. -/
def narrow (question : Question) (rows : List Row) : List Row :=
  match question.parent? with
  | some parent => rows.filter (·.tag.parent = parent)
  | none => rows

/-- A query of a lookup has the limit of the lookup, and its rows are filtered by the lookup's kinds or not at
all. -/
theorem queries_spec {A : List String → Prop} (hA : A []) (hq : question.FiltersBy A) {caseSensitive : Bool}
    {limit : Nat} {a : Asked} (h : a ∈ question.queries caseSensitive limit) :
    a.1.limit = question.limitOf limit ∧ A a.2 := by
  have hunless : ∀ {p : Prop} [Decidable p] {asked : List Asked}, a ∈ (if p then [] else asked) → a ∈ asked :=
    fun h => (List.mem_ite_nil_left.mp h).2
  cases question with
  | fileScopedTags =>
      rcases List.mem_pair.mp (hunless h) with rfl | rfl
      · exact ⟨rfl, hq⟩
      · exact ⟨rfl, hA⟩
  | tagsByScopesAndName =>
      rcases List.mem_append.mp (hunless h) with h | h
      · obtain rfl := List.mem_singleton.mp (List.mem_ite_nil_right.mp h).2
        exact ⟨rfl, hA⟩
      · obtain rfl := List.mem_singleton.mp (hunless h)
        exact ⟨rfl, hA⟩
  | tagsByScopesAndKind =>
      obtain ⟨scope, _, rfl⟩ := List.mem_map.mp (hunless h)
      exact ⟨rfl, hq⟩
  | tagsByKindAndPath =>
      obtain rfl := List.mem_singleton.mp (hunless h)
      exact ⟨rfl, hq⟩
  | tagsByFile | tagsByFileAndLine | tagsByScope | parameters | lambdas =>
      obtain rfl := List.mem_singleton.mp h
      exact ⟨rfl, hA⟩
  | tagsByKindAndFile | tagsByScopeAndName | tagsByScopeAndKind | tagsByKind | tagsByPath | tagsByPathLimit
  | tagsByPathAndKind | tagsByPathParts | tagsByName | tagsByPartName | tagsByNameAndParent =>
      obtain rfl := List.mem_singleton.mp (hunless h)
      exact ⟨rfl, hA⟩
  | _ => cases h

/-- The lookups that make at most one query. -/
def AsksOnce : Question → Prop
  | fileScopedTags .. | tagsByScopesAndName .. | tagsByScopesAndKind .. => False
  | _ => True

/-- Such a lookup answers the rows of its query. -/
theorem gives_of_asksOnce (h : question.AsksOnce) (s : Store) : Gives s question.tags
    (question.narrow (s.rowsAsked (question.queries s.options.caseSensitive s.options.searchLimit))) := by
  have hlimited : ∀ (q : Nat → Query) (kinds : List String), Gives s (do fetchKinds (q (← searchLimit)) kinds)
      (s.rowsAsked [(q s.options.searchLimit, kinds)]) := fun q kinds => .limited (s.gives_rowsAsked _ kinds)
  cases question with
  | fileScopedTags file name kinds => exact h.elim
  | tagsByScopesAndName scopes name isPartial => exact h.elim
  | tagsByScopesAndKind scopes kinds => exact h.elim
  | tagsByFile file => exact hlimited (byFile file) []
  | tagsByFileAndLine file line => exact hlimited (byFileAndLine file line) []
  | tagsByKindAndFile kinds file sorting => exact gives_unless (hlimited (byKindAndFile kinds file sorting) [])
  | tagsByScope scope => exact hlimited (byScope scope) []
  | tagsByScopeAndName scope name isPartial =>
      exact gives_unless (.named (f := fun test => do fetch (byScopeAndName scope test (← searchLimit)))
        (hlimited (byScopeAndName scope _) []))
  | tagsByScopeAndKind scope kinds filter =>
      exact gives_unless (hlimited (byScopeAndKind scope kinds filter) [])
  | tagsByKind kinds sorting => exact gives_unless (hlimited (byKind kinds sorting) [])
  | tagsByPath paths => exact gives_unless (hlimited (byPaths paths) [])
  | tagsByPathLimit path most => exact gives_unless (hlimited (fun n => byPath path (min most n)) [])
  | tagsByPathAndKind path kinds most =>
      exact gives_unless (hlimited (fun n => byPathAndKind path kinds (min most n)) [])
  | tagsByKindAndPath kinds path => exact gives_unless (hlimited (byPath path) kinds)
  | tagsByPathParts parts => exact gives_unless (hlimited (byPathParts parts) [])
  | tagsByName name isPartial =>
      exact gives_unless (.named (f := fun test => do fetch (byName test (← searchLimit))) (hlimited (byName _) []))
  | tagsByPartName part => exact gives_unless (hlimited (byName _) [])
  | tagsByNameAndParent name parent =>
      have hfound : Gives s (do return (← fetch (byName (.is name) (← searchLimit))).filter (·.tag.parent = parent))
          ((s.rowsAsked [(byName (.is name) s.options.searchLimit, [])]).filter (·.tag.parent = parent)) :=
        .limited ((s.gives_rowsAsked _ []).map _)
      simp only [tags, Store.tagsByNameAndParent, narrow, parent?, queries]
      by_cases hname : name = ""
      · rw [if_pos hname, if_pos hname]
        rfl
      · rw [if_neg hname, if_neg hname]
        exact hfound
  | parameters functionPath => exact hlimited (byKindAndScope _ functionPath) []
  | lambdas functionPath => exact hlimited (byKindAndScope _ functionPath) []
  | _ => rfl

end Question
end TagIndex
