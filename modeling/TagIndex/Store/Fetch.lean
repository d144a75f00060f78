import TagIndex.Store.Session

/-!
Answers of queries, from the cache or from the database. A query that fails answers nothing, and
one that meets a damaged file opens the file again; the failed query is not tried again.
-/
namespace TagIndex

/-- Lookups only use a store: they can fill its cache and open its file again. -/
abbrev Lookup (α : Type) := StateM Store α

namespace Store

/-- Asks the database; `none` when no file is open or the answer could not be had. -/
def askDatabase {α : Type} (f : Database → Except Fault α) : Lookup (Option α) := fun s =>
  match s.connection with
  | none => (none, s)
  | some c =>
    match s.perform c (Work.query f) with
    | (.ok a, s) => (some a, s)
    | (.error fault, s) => (none, s.heal fault)

def keepKinds (kinds : List String) (rows : List Row) : List Row :=
  if kinds.isEmpty then rows else rows.filter fun r => kinds.contains r.tag.kind

/-- The rows of a query with one of the given kinds. A query that is too large answers nothing and
leaves the file alone. -/
def fetchKinds (q : Query) (kinds : List String) : Lookup (List Row) := do
  if q.isTooLarge then return []
  let s ← get
  match if s.options.useCache then s.cache.find? (q.key kinds) else none with
  | some rows => return rows
  | none =>
    match ← askDatabase q.run with
    | none => return []
    | some rows =>
      let rows := keepKinds kinds rows
      if s.options.useCache then
        modify fun s => { s with cache := s.cache.keep (q.key kinds) rows }
      return rows

def fetch (q : Query) : Lookup (List Row) := fetchKinds q []

end Store
end TagIndex
