import TagIndex.Query
import TagIndex.Text.Pieces
import TagIndex.Text.Quoted

/-!
The text under which a query's answer is kept: the statement that asks for the rows, with a question
mark for every value, the values, and the kinds that the answer was filtered by, each after an `@`.
-/
namespace TagIndex

inductive Value where
  | text (s : String)
  | integer (n : Int)
  deriving DecidableEq, Repr

def Value.display : Value → String
  | text s => "Text(" ++ Text.display s ++ ")"
  | integer n => "Integer(" ++ toString n ++ ")"

def TextColumn.label : TextColumn → String
  | name => "name"
  | file => "file"
  | kind => "kind"
  | scope => "scope"
  | path => "path"

namespace Test

/-- The test as a statement asks it of a column. -/
def statement (column : String) : Test → String
  | is _ => column ++ " = ?"
  | oneOf ss => column ++ " IN (" ++ Text.joined ", " (ss.map fun _ => "?") ++ ")"
  | like _ => column ++ " LIKE ? ESCAPE '^'"
  | unlike _ => column ++ " NOT LIKE ? ESCAPE '^'"
  | likePlain _ => column ++ " LIKE ?"
  | range _ none => column ++ " >= ?"
  | range _ (some _) => column ++ " >= ? AND " ++ column ++ " < ?"

def values : Test → List Value
  | is s | like s | unlike s | likePlain s | range s none => [.text s]
  | oneOf ss => ss.map .text
  | range low (some high) => [.text low, .text high]

end Test

namespace Condition

def statement : Condition → String
  | column c t => t.statement c.label
  | onLine _ => "line = ?"
  | atOrBefore _ => "line <= ?"
  | globalNamed t =>
    "id IN (SELECT tag_id FROM global_tags WHERE " ++ t.statement TextColumn.name.label ++ ")"

def values : Condition → List Value
  | column _ t | globalNamed t => t.values
  | onLine n | atOrBefore n => [.integer n]

end Condition

def SortColumn.label : SortColumn → String
  | id => "id"
  | name => "name"
  | file => "file"
  | line => "line"
  | kind => "kind"
  | scope => "scope"
  | path => "path"

def Direction.label : Direction → String
  | ascending => " ASC"
  | descending => " DESC"
  | unspecified => ""

def Sorting.statement (s : Sorting) : String := " ORDER BY " ++ s.column.label ++ s.direction.label

namespace Query

/-- The columns of a row, in the order in which it is read. -/
def columnList : String :=
  "id, name, file, line, kind, access, signature, pattern, parent, inherits, path, typeref, " ++
    "scope, template_definition, tag_properties, macrodef"

def statement (q : Query) : String :=
  "SELECT " ++ columnList ++ " FROM tags WHERE " ++
    Text.joined " AND " (q.conditions.map Condition.statement) ++
    (q.sorting.map Sorting.statement).getD "" ++ " LIMIT " ++ toString q.limit

def values (q : Query) : List Value := q.conditions.flatMap Condition.values

def kindsText (kinds : List String) : String := String.join (kinds.map ("@" ++ ·))

/-- The key of the query's answer when only rows of the given kinds are kept. -/
def key (q : Query) (kinds : List String) : String :=
  q.statement ++ " [" ++ Text.joined ", " (q.values.map Value.display) ++ "]" ++ kindsText kinds

end Query
end TagIndex
