import TagIndex.Store.Fetch

/-!
The lookups of tags. Each is bounded by the session's search limit; those that make one query are
given by that query, and the others merge the answers of several.
-/
namespace TagIndex

namespace Query

/-! ## The queries of the lookups -/

def byFile (file : String) (limit : Nat) : Query where
  conditions := [.column .file (.is file)]
  sorting := some (.ascending .line)
  limit := limit

def byFileAndLine (file : String) (line : Int) (limit : Nat) : Query where
  conditions := [.column .file (.is file), .onLine line]
  limit := limit

def byKindAndFile (kinds : List String) (file : String) (sorting : Option Sorting) (limit : Nat) :
    Query where
  conditions := [.column .file (.is file), .column .kind (.oneOf kinds)]
  sorting := sorting
  limit := limit

/-- The named construct that starts last at or before a line. -/
def scopeAt (file : String) (line : Int) : Query where
  conditions :=
    [.column .file (.is file), .atOrBefore line,
     .column .name (.unlike (Text.startingWith anonymousPrefix)),
     .column .kind (.oneOf Kind.enclosing)]
  sorting := some (.descending .line)
  limit := 1

/-- The condition that a name starts with a text, unless that is empty. -/
def nameFilter (name : String) : List Condition :=
  if name = "" then [] else [.column .name (.like (Text.startingWith name))]

def anonymousOfFile (file name : String) (limit : Nat) : Query where
  conditions :=
    [.column .file (.is file), .column .scope (.like (Text.startingWith anonymousPrefix))] ++
      nameFilter name
  limit := limit

def membersOfFile (file name : String) (limit : Nat) : Query where
  conditions :=
    [.column .file (.is file), .column .kind (.oneOf Kind.fileLevel)] ++ nameFilter name
  limit := limit

def byScope (scope : String) (limit : Nat) : Query where
  conditions := [.column .scope (.is scope)]
  sorting := some (.ascending .name)
  limit := limit

/-- Names of the global scope are looked up in its projection. -/
def byScopeAndName (scope : String) (name : Test) (limit : Nat) : Query where
  conditions :=
    if scope = "" ∨ scope = globalScope then [.globalNamed name]
    else [.column .scope (.is scope), .column .name name]
  limit := limit

def byScopesAndName (scopes : List String) (name : Test) (limit : Nat) : Query where
  conditions := [.column .scope (.oneOf scopes), .column .name name]
  limit := limit

def byScopeAndKind (scope : String) (kinds : List String) (filter : String) (limit : Nat) :
    Query where
  conditions :=
    [.column .scope (.is scope)] ++ nameFilter filter ++ [.column .kind (.oneOf kinds)]
  limit := limit

def byKind (kinds : List String) (sorting : Option Sorting) (limit : Nat) : Query where
  conditions := [.column .kind (.oneOf kinds)]
  sorting := sorting
  limit := limit

def byPaths (paths : List String) (limit : Nat) : Query where
  conditions := [.column .path (.oneOf paths)]
  limit := limit

def byPath (path : String) (limit : Nat) : Query where
  conditions := [.column .path (.is path)]
  limit := limit

def byPathAndKind (path : String) (kinds : List String) (limit : Nat) : Query where
  conditions :=
    .column .path (.is path) :: if kinds.isEmpty then [] else [.column .kind (.oneOf kinds)]
  sorting := some (.ascending .id)
  limit := limit

def byPathParts (parts : List String) (limit : Nat) : Query where
  conditions := parts.map fun part => .column .path (.like (Text.containing part))
  limit := limit

def byName (name : Test) (limit : Nat) : Query where
  conditions := [.column .name name]
  limit := limit

def byKindAndScope (kind scope : String) (limit : Nat) : Query where
  conditions := [.column .kind (.is kind), .column .scope (.is scope)]
  sorting := some (.ascending .id)
  limit := limit

def operatorOfScope (scope pattern : String) : Query where
  conditions := [.column .scope (.is scope), .column .name (.likePlain pattern)]
  limit := 1

end Query

namespace Store

open Query

def searchLimit : Lookup Nat := return (← get).options.searchLimit

/-- The limit for what is left of a ceiling: always at least one row. -/
def remaining (ceiling already : Nat) : Nat := max (ceiling - already) 1

/-! ## By file -/

def tagsByFile (file : String) : Lookup (List Row) := do
  fetch (byFile file (← searchLimit))

def tagsByFileAndLine (file : String) (line : Int) : Lookup (List Row) := do
  fetch (byFileAndLine file line (← searchLimit))

def tagsByKindAndFile (kinds : List String) (file : String) (sorting : Option Sorting) :
    Lookup (List Row) := do
  if kinds.isEmpty then return []
  fetch (byKindAndFile kinds file sorting (← searchLimit))

def scopeAt (file : String) (line : Int) : Lookup (Option Row) := do
  if file = "" ∨ line < 0 then return none
  return (← fetch (Query.scopeAt file line)).head?

def distinctRows (rows : List Row) : List Row :=
  rows.foldl (fun kept r => if kept.any (·.id = r.id) then kept else kept ++ [r]) []

def sortByLine (rows : List Row) : List Row :=
  rows.mergeSort fun a b => a.tag.line ≤ b.tag.line

/-- What the whole file sees: the tags of its anonymous scopes, of the given kinds if there are any,
and its members, variables, classes, structs and enums; by line. -/
def fileScopedTags (file name : String) (kinds : List String) : Lookup (List Row) := do
  if file = "" then return []
  let anonymous ← fetchKinds (anonymousOfFile file name (← searchLimit)) kinds
  let members ← fetch (membersOfFile file name (← searchLimit))
  return sortByLine (distinctRows (anonymous ++ members))

/-! ## By scope -/

def tagsByScope (scope : String) : Lookup (List Row) := do
  fetch (byScope scope (← searchLimit))

/-- The test that this session makes of a name or of the start of one. -/
def nameTest (name : String) (isPartial : Bool) : Lookup Test := do
  return Test.forName name isPartial (← get).options.caseSensitive

def tagsByScopeAndName (scope name : String) (isPartial : Bool) : Lookup (List Row) := do
  if name = "" then return []
  fetch (byScopeAndName scope (← nameTest name isPartial) (← searchLimit))

/-- Joins the rows of the scopes in list order, each scope once, until the limit is reached. -/
def mergeScopes (limit : Nat) (nested : List Row) :
    (scopes merged : List String) → (global : List Row) → List Row → List Row
  | [], _, _, tags => tags
  | scope :: scopes, merged, global, tags =>
    if merged.contains scope then mergeScopes limit nested scopes merged global tags
    else
      let isGlobal := scope = globalScope
      let found := if isGlobal then global else nested.filter (·.tag.scope = scope)
      let tags := tags ++ found
      if limit ≤ tags.length then tags.take limit
      else
        mergeScopes limit nested scopes (scope :: merged) (if isGlobal then [] else global) tags

/-- The tags of several scopes; all but the global one are asked for at once, for what that one
leaves of the limit. -/
def tagsByScopesAndName (scopes : List String) (name : String) (isPartial : Bool) :
    Lookup (List Row) := do
  if scopes.isEmpty ∨ name = "" then return []
  let limit ← searchLimit
  let global ←
    if scopes.contains globalScope then tagsByScopeAndName globalScope name isPartial
    else pure []
  let named := scopes.filter (· ≠ globalScope)
  let nested ←
    if named.isEmpty then pure []
    else fetch (byScopesAndName named (← nameTest name isPartial) (remaining limit global.length))
  return mergeScopes limit nested scopes [] global []

/-- The tags of given kinds, scope by scope, until the limit is reached. -/
def tagsOfScopes (limit : Nat) (kinds : List String) : List String → List Row → Lookup (List Row)
  | [], tags => return tags
  | scope :: scopes, tags => do
    let found ← fetchKinds (byScope scope (remaining limit tags.length)) kinds
    let tags := tags ++ found
    if limit ≤ tags.length then return tags
    tagsOfScopes limit kinds scopes tags

def tagsByScopesAndKind (scopes kinds : List String) : Lookup (List Row) := do
  if kinds.isEmpty ∨ scopes.isEmpty then return []
  tagsOfScopes (← searchLimit) kinds scopes []

def tagsByScopeAndKind (scope : String) (kinds : List String) (filter : String) :
    Lookup (List Row) := do
  if kinds.isEmpty then return []
  fetch (byScopeAndKind scope kinds filter (← searchLimit))

/-! ## By kind and path -/

def tagsByKind (kinds : List String) (sorting : Option Sorting) : Lookup (List Row) := do
  if kinds.isEmpty then return []
  fetch (byKind kinds sorting (← searchLimit))

def tagsByPath (paths : List String) : Lookup (List Row) := do
  if paths.isEmpty then return []
  fetch (byPaths paths (← searchLimit))

def tagsByPathLimit (path : String) (limit : Nat) : Lookup (List Row) := do
  if path = "" then return []
  fetch (byPath path (min limit (← searchLimit)))

def tagsByPathAndKind (path : String) (kinds : List String) (limit : Nat) : Lookup (List Row) := do
  if path = "" then return []
  fetch (byPathAndKind path kinds (min limit (← searchLimit)))

/-- The kinds are looked at after the limit. -/
def tagsByKindAndPath (kinds : List String) (path : String) : Lookup (List Row) := do
  if kinds.isEmpty then return []
  fetchKinds (byPath path (← searchLimit)) kinds

def tagsByPathParts (parts : List String) : Lookup (List Row) := do
  if parts.isEmpty then return []
  fetch (byPathParts parts (← searchLimit))

/-! ## By name -/

def tagsByName (name : String) (isPartial : Bool) : Lookup (List Row) := do
  if name = "" then return []
  fetch (byName (← nameTest name isPartial) (← searchLimit))

def tagByNameLimitOne (name : String) : Lookup (Option Row) := do
  if name = "" then return none
  return (← fetch (byName (.is name) 1)).head?

def tagsByPartName (part : String) : Lookup (List Row) := do
  if part = "" then return []
  fetch (byName (.like (Text.containing part)) (← searchLimit))

/-- The parent is looked at after the limit. -/
def tagsByNameAndParent (name parent : String) : Lookup (List Row) := do
  if name = "" then return []
  return (← fetch (byName (.is name) (← searchLimit))).filter (·.tag.parent = parent)

/-- The parameters of a function, by id. -/
def parameters (functionPath : String) : Lookup (List Row) := do
  fetch (byKindAndScope Kind.parameter functionPath (← searchLimit))

/-- The functions declared inside a function, by id. -/
def lambdas (functionPath : String) : Lookup (List Row) := do
  fetch (byKindAndScope Kind.function functionPath (← searchLimit))

def dereferenceOperator (scope : String) : Lookup (Option Row) :=
  return (← fetch (operatorOfScope scope "operator%->%")).head?

def subscriptOperator (scope : String) : Lookup (Option Row) :=
  return (← fetch (operatorOfScope scope "operator%[%]%")).head?

end Store
end TagIndex
