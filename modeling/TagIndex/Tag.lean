import TagIndex.Tag.Kind
import TagIndex.Text.Pieces

/-!
A tag is one occurrence of a symbol in a source file. Its unique key leaves out name, line and
scope, so a symbol that moves or is renamed under the same path stays the same entry.
-/
namespace TagIndex

/-- The scope of symbols that no named construct encloses. -/
def globalScope : String := "<global>"

/-- Scopes of unnamed blocks start so; they change at every parse of the file. -/
def anonymousPrefix : String := "__anon"

structure Tag where
  name : String := ""
  file : String := ""
  line : Int := 0
  kind : String := ""
  access : String := ""
  signature : String := ""
  pattern : String := ""
  parent : String := ""
  inherits : List String := []
  path : String := ""
  typeref : String := ""
  scope : String := ""
  templateDefinition : String := ""
  properties : String := ""
  macroDefinition : String := ""
  deriving DecidableEq, Repr, Inhabited

/-- What tells two entries of the index apart. -/
structure Tag.Key where
  file : String
  kind : String
  path : String
  signature : String
  typeref : String
  templateDefinition : String
  deriving DecidableEq, Repr

namespace Tag

def key (t : Tag) : Key where
  file := t.file
  kind := t.kind
  path := t.path
  signature := t.signature
  typeref := t.typeref
  templateDefinition := t.templateDefinition

/-- A tag in the global scope with the fields that every candidate carries. -/
def new (name file : String) (line : Int) (kind : String) : Tag :=
  { name, file, line, kind, scope := globalScope, path := name }

/-- Places a tag in a scope; its parent is the last segment of the scope's path. -/
def inScope (t : Tag) (scope : String) : Tag :=
  if scope = "" ∨ scope = globalScope then
    { t with scope, parent := "", path := t.name }
  else
    { t with
      scope
      parent := String.ofList (Text.lastSegment scope.toList)
      path := scope ++ "::" ++ t.name }

/-- A candidate without a file or a known kind is a dummy. -/
def isOk (t : Tag) : Bool := t.file ≠ "" && t.kind ≠ "" && t.kind ≠ Kind.unknown

def isLocalVariable (t : Tag) : Bool := t.kind = Kind.localVariable
def isGlobal (t : Tag) : Bool := t.scope = globalScope
def isAnonymousScope (t : Tag) : Bool := anonymousPrefix.toList.isPrefixOf t.scope.toList
def isFunction (t : Tag) : Bool := t.kind = Kind.function
def isContainer (t : Tag) : Bool := Kind.containers.contains t.kind

/-- The tags that the index keeps: no dummies and no local variables. -/
def isAccepted (t : Tag) : Bool := !t.isLocalVariable && t.isOk

def inheritsText (t : Tag) : String := Text.joined "," t.inherits

/-- The tag as it is read back from the index: only the inherits list can change. -/
def settled (t : Tag) : Tag := { t with inherits := Text.itemsOf t.inheritsText }

/-- Completes a tag that was written without scope or path. -/
def completed (t : Tag) : Tag :=
  let scope := if t.scope = "" then globalScope else t.scope
  let path :=
    if t.path ≠ "" then t.path
    else if scope = globalScope then t.name
    else scope ++ "::" ++ t.name
  { t with scope, path }

end Tag

/-- A tag in the index, under the number that the index gave it. -/
structure Row where
  id : Nat
  tag : Tag
  deriving DecidableEq, Repr, Inhabited

structure TypeScope where
  name : String
  scope : String
  deriving DecidableEq, Repr

end TagIndex
