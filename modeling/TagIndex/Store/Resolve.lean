import TagIndex.Store.Fetch

/-!
Resolution of type names. Of the types that bear the bare name, one in the wanted scope is taken
first, then the last whose parent is the wanted one, then the only one there is.
-/
namespace TagIndex

/-- A possibly qualified type name as it is looked for from a scope. -/
structure WantedType where
  name : String
  scope : String
  parent : String
  deriving DecidableEq, Repr

namespace WantedType

def dropLastColons (cs : List Char) : List Char := (cs.reverse.dropWhile (· = ':')).reverse

/-- The qualifier before the last colon extends the scope; colons at its end are dropped. -/
def of (typeName scope : String) : WantedType :=
  let cs := typeName.toList
  let bare := Text.afterLast (· == ':') cs
  let qualifier := dropLastColons (cs.take (cs.length - bare.length))
  let wanted :=
    if qualifier.isEmpty then scope else scope ++ "::" ++ String.ofList qualifier
  { name := String.ofList bare
    scope := wanted
    parent := String.ofList (Text.afterLast (· == ':') wanted.toList) }

/-- What is chosen once all candidates are seen: the scope of the last one with the wanted parent, or that of the
only one. -/
def fallback (best : String) (others : Nat) (last : String) : Option String :=
  if best ≠ "" then some best else if others = 1 then some last else none

/-- The scope that is chosen among the candidates, which come by ascending id. One in the wanted scope ends the pass;
until then it keeps the scope of the last one with the wanted parent, the number of those without it, and the scope of
the last one of all. -/
def choose (w : WantedType) : List Tag → (best : String) → (others : Nat) → (last : String) → Option String
  | [], best, others, last => fallback best others last
  | t :: ts, best, others, _ =>
    if t.scope = w.scope then some t.scope
    else if t.parent = w.parent then w.choose ts t.scope others t.scope
    else w.choose ts best (others + 1) t.scope

def sampleLimit : Nat := 50

def candidates (w : WantedType) : Query where
  conditions := [.column .name (.is w.name), .column .kind (.oneOf Kind.types)]
  limit := sampleLimit

end WantedType

namespace Store

def resolveTypeScope (typeName scope : String) : Lookup (Option TypeScope) := do
  let wanted := WantedType.of typeName scope
  if wanted.name = "" then return none
  match ← askDatabase wanted.candidates.run with
  | none => return none
  | some rows =>
    return (wanted.choose (rows.map (·.tag)) "" 0 "").map fun found => ⟨wanted.name, found⟩

def typeAt (path : String) : Query where
  conditions := [.column .path (.is path), .column .kind (.oneOf Kind.types)]
  limit := 1

def typeAndScopeExists (typeName scope : String) : Lookup Bool := do
  let path :=
    if scope = "" ∨ scope = globalScope then typeName else scope ++ "::" ++ typeName
  return (← askDatabase (typeAt path).run).any (!·.isEmpty)

end Store
end TagIndex
