import TagIndex.Query

/-! The commands that can be given on a command line. -/
namespace TagIndex

/-- The form of results. What `auto` means is left to the place where the text goes; in a file or a
pipe it is `tsv`. -/
inductive Format where
  | auto
  | tsv
  | json
  | md
  deriving DecidableEq, Repr

/-- Questions whose answer is a list of tags. -/
inductive TagQuery where
  | name (name : String) (exact contains : Bool) (parent : Option String)
  | scope (scopes : List String) (name : Option String) (exact : Bool) (kinds : List String)
  | file (file : String) (line : Option Int) (kinds : List String) (visible : Option String)
  | kind (kinds : List String) (sorting : Option Sorting)
  | path (path : String) (kinds : List String) (parts : Bool)
  | enclosing (file : String) (line : Int)
  | params (function : String)
  deriving DecidableEq, Repr

inductive Command where
  | take (paths : List String) (noCache : Bool)
  | tags (q : TagQuery)
  | resolve (typeName scope : String)
  | definition (name : String)
  | files (typed : Option String) (complete : Bool)
  | remove (files : List String)
  | status
  | clear
  | completions (shell : String)
  deriving DecidableEq, Repr

structure Invocation where
  command : Command
  format : Format := .auto
  verbose : Bool := false
  database : Option String := none
  settings : Option String := none
  deriving DecidableEq, Repr

end TagIndex
