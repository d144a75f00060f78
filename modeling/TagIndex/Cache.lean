import TagIndex.Query.Key

/-!
Kept answers of queries. There is no bound on their number; rows in an anonymous scope are never
kept, because the names of such scopes change at every parse.
-/
namespace TagIndex

structure Cache where
  entries : List (String × List Row) := []
  deriving Inhabited

namespace Cache

def find? (c : Cache) (key : String) : Option (List Row) :=
  (c.entries.find? (·.1 = key)).map (·.2)

/-- Replaces the answer under a key, unless a row of the new one must not be kept. -/
def keep (c : Cache) (key : String) (rows : List Row) : Cache :=
  let others := c.entries.filter (·.1 ≠ key)
  if rows.any (·.tag.isAnonymousScope) then ⟨others⟩ else ⟨(key, rows) :: others⟩

def size (c : Cache) : Nat := c.entries.length

end Cache
end TagIndex
